import TickBacktest.Expression.Parser
import TickBacktest.Proofs.Expression.Numeral

/-! # Tokens as they are written

The words of the expression language, said without a reader: numbers, quoted texts, names and marks
(`Lexeme`). A text is cut into tokens from the left, blanks skipped, every token as long as it can
be (`Munch`, `Tokens`).

`token?` cuts off the front token in the way of the parser, and this is the longest one
(`munch_iff`). The matchers that the parser uses are `token?` with an eye to one kind of token
(`token?_name_iff`, `additive?_iff`, …). -/

namespace TickBacktest.Expression

open Decimal Text

/-! ## Words -/

/-- The marks of the language. -/
inductive Mark where
  | plus
  | minus
  | star
  | slash
  | percent
  | doubleStar
  | doubleSlash
  | caret
  | above
  | below
  | atLeast
  | atMost
  | same
  | different
  | assign
  | comma
  | dot
  | openParen
  | closeParen
  | openBracket
  | closeBracket
  deriving DecidableEq, Repr

/-- How a mark is written. -/
def Mark.spelling : Mark → List Char
  | plus => ['+']
  | minus => ['-']
  | star => ['*']
  | slash => ['/']
  | percent => ['%']
  | doubleStar => ['*', '*']
  | doubleSlash => ['/', '/']
  | caret => ['^']
  | above => ['>']
  | below => ['<']
  | atLeast => ['>', '=']
  | atMost => ['<', '=']
  | same => ['=', '=']
  | different => ['!', '=']
  | assign => ['=']
  | comma => [',']
  | dot => ['.']
  | openParen => ['(']
  | closeParen => [')']
  | openBracket => ['[']
  | closeBracket => [']']

/-- A token: a literal with its value, a name, or a mark. -/
inductive Token where
  | number (value : Float)
  | text (value : String)
  | name (name : String)
  | mark (mark : Mark)

/-- What stands between two quotes, and the text it means: the quote itself only after a backslash,
which takes any character as it is. -/
inductive Quoted (quote : Char) : List Char → List Char → Prop where
  | nil : Quoted quote [] []
  | plain {c : Char} {body s : List Char} : c ≠ quote → c ≠ '\\' → Quoted quote body s →
      Quoted quote (c :: body) (c :: s)
  | escaped {c : Char} {body s : List Char} : Quoted quote body s →
      Quoted quote ('\\' :: c :: body) (c :: s)

/-- **The words of the language** and the tokens they stand for. -/
inductive Lexeme : List Char → Token → Prop where
  | number {m e : List Char} {x : Float} : Mantissa m → Exponent e → float? (m ++ e) = some x →
      Lexeme (m ++ e) (.number x)
  | text {q : Char} {body s : List Char} : q = '"' ∨ q = '\x27' → Quoted q body s →
      Lexeme (q :: (body ++ [q])) (.text (String.ofList s))
  | name {c : Char} {cs : List Char} : startsName c = true →
      (∀ d ∈ cs, continuesName d = true) → Lexeme (c :: cs) (.name (String.ofList (c :: cs)))
  | mark (m : Mark) : Lexeme m.spelling (.mark m)

/-- The longest word at the front of a text is the token `t`, and `rest` is what follows it. -/
def Munch (cs : List Char) (t : Token) (rest : List Char) : Prop :=
  ∃ w, cs = w ++ rest ∧ Lexeme w t ∧ ∀ v u, Lexeme v u → v <+: cs → v.length ≤ w.length

/-- **The tokens of a text**, with blanks around them. -/
inductive Tokens : List Char → List Token → Prop where
  | done {cs : List Char} : trimLeft cs = [] → Tokens cs []
  | next {cs rest : List Char} {t : Token} {ts : List Token} : Munch (trimLeft cs) t rest →
      Tokens rest ts → Tokens cs (t :: ts)

/-! ## The front token -/

/-- The mark at the front of a text. -/
def mark? : List Char → Option (Mark × List Char)
  | '*' :: '*' :: cs => some (.doubleStar, cs)
  | '/' :: '/' :: cs => some (.doubleSlash, cs)
  | '>' :: '=' :: cs => some (.atLeast, cs)
  | '<' :: '=' :: cs => some (.atMost, cs)
  | '=' :: '=' :: cs => some (.same, cs)
  | '!' :: '=' :: cs => some (.different, cs)
  | '+' :: cs => some (.plus, cs)
  | '-' :: cs => some (.minus, cs)
  | '*' :: cs => some (.star, cs)
  | '/' :: cs => some (.slash, cs)
  | '%' :: cs => some (.percent, cs)
  | '^' :: cs => some (.caret, cs)
  | '>' :: cs => some (.above, cs)
  | '<' :: cs => some (.below, cs)
  | '=' :: cs => some (.assign, cs)
  | ',' :: cs => some (.comma, cs)
  | '.' :: cs => some (.dot, cs)
  | '(' :: cs => some (.openParen, cs)
  | ')' :: cs => some (.closeParen, cs)
  | '[' :: cs => some (.openBracket, cs)
  | ']' :: cs => some (.closeBracket, cs)
  | _ => none

/-- The token at the front of a text. -/
def token? (cs : List Char) : Option (Token × List Char) :=
  if startsNumber cs then some (.number (number cs).1, (number cs).2)
  else
    match cs with
    | [] => none
    | c :: more =>
      if c = '"' ∨ c = '\x27' then
        (quotedBody c more).map fun p => (.text (String.ofList p.1), p.2)
      else
        match name? (c :: more) with
        | some p => some (.name p.1, p.2)
        | none => (mark? (c :: more)).map fun p => (.mark p.1, p.2)

/-! ### Marks -/

theorem spelling_of_mark? {cs rest : List Char} {m : Mark} (h : mark? cs = some (m, rest)) :
    cs = m.spelling ++ rest := by
  unfold mark? at h
  split at h <;> cases h <;> rfl

theorem Mark.spelling_injective {m n : Mark} (h : m.spelling = n.spelling) : m = n := by
  have hread : ∀ k : Mark, mark? k.spelling = some (k, []) := fun k => by cases k <;> rfl
  have := hread m
  rw [h, hread n] at this
  cases this
  rfl

/-- The character that makes a longer mark of a mark. -/
def Mark.longer? : Mark → Option Char
  | star => some '*'
  | slash => some '/'
  | above | below | assign => some '='
  | _ => none

/-- A mark is taken where it is written, unless it goes on to a longer one. -/
theorem mark?_eq_some_iff {cs rest : List Char} {m : Mark} : mark? cs = some (m, rest) ↔
    cs = m.spelling ++ rest ∧ ∀ c ∈ m.longer?, rest.head? ≠ some c := by
  constructor
  · intro h
    refine ⟨spelling_of_mark? h, ?_⟩
    rintro c hc hhead
    rcases rest with _ | ⟨d, more⟩
    · cases hhead
    · cases hhead
      rw [spelling_of_mark? h] at h
      cases m <;> cases hc <;> cases h
  · rintro ⟨rfl, hlonger⟩
    cases m
    case star | slash | above | below | assign =>
      change mark? (_ :: rest) = _
      rw [mark?]
      rintro more rfl
      exact hlonger _ rfl rfl
    all_goals rfl

/-- No mark is taken that is shorter than one that stands there. -/
theorem mark?_spelling (m : Mark) (rest : List Char) :
    ∃ n r, mark? (m.spelling ++ rest) = some (n, r) ∧ r.length ≤ rest.length := by
  by_cases h : ∀ c ∈ m.longer?, rest.head? ≠ some c
  · exact ⟨m, rest, mark?_eq_some_iff.mpr ⟨rfl, h⟩, Nat.le_refl _⟩
  · push Not at h
    obtain ⟨c, hc, hhead⟩ := h
    obtain ⟨more, rfl⟩ := List.head?_eq_some_iff.mp hhead
    cases m <;> cases hc
    all_goals exact ⟨_, _, rfl, Nat.le_succ _⟩

/-! ### Quoted texts -/

/-- A quoted text goes on to the first quote that no backslash takes. -/
theorem quotedBody_iff {quote : Char} (hq : quote ≠ '\\') {cs s rest : List Char} :
    quotedBody quote cs = some (s, rest) ↔
      ∃ body, cs = body ++ quote :: rest ∧ Quoted quote body s := by
  constructor
  · intro h
    fun_induction quotedBody quote cs generalizing s with
    | case1 => cases h
    | case2 =>
      cases h
      exact ⟨[], rfl, .nil⟩
    | case3 => cases h
    | case4 d cs =>
      cases h
      exact ⟨[], rfl, .nil⟩
    | case5 d cs _ ih =>
      obtain ⟨⟨t, r⟩, ht, he⟩ := Option.map_eq_some_iff.mp h
      cases he
      obtain ⟨body, rfl, hbody⟩ := ih ht
      exact ⟨'\\' :: d :: body, rfl, .escaped hbody⟩
    | case6 c d cs hc hb ih =>
      obtain ⟨⟨t, r⟩, ht, he⟩ := Option.map_eq_some_iff.mp h
      cases he
      obtain ⟨body, hcs, hbody⟩ := ih ht
      exact ⟨c :: body, by rw [hcs]; rfl, .plain hc hb hbody⟩
  · rintro ⟨body, rfl, h⟩
    induction h with
    | nil =>
      rcases rest with _ | ⟨d, cs⟩
      · rw [List.nil_append, quotedBody, if_pos rfl]
      · rw [List.nil_append, quotedBody, if_pos rfl]
    | @plain c body s hc hb _ ih =>
      obtain ⟨d, cs, heq⟩ := List.exists_cons_of_ne_nil (l := body ++ quote :: rest) (by simp)
      rw [heq] at ih
      rw [List.cons_append, heq, quotedBody, if_neg hc, if_neg hb, ih]
      rfl
    | escaped _ ih =>
      rw [List.cons_append, List.cons_append, quotedBody, if_neg hq.symm, if_pos rfl, ih]
      rfl

/-! ### Names -/

theorem name?_eq_some_iff {cs rest : List Char} {s : String} : name? cs = some (s, rest) ↔
    ∃ c more, cs = c :: more ∧ startsName c = true ∧
      s = String.ofList (c :: more.takeWhile continuesName) ∧
      rest = more.dropWhile continuesName := by
  constructor
  · intro h
    rcases cs with _ | ⟨c, more⟩
    · cases h
    · rw [name?] at h
      by_cases hc : startsName c = true
      · rw [if_pos hc] at h
        cases h
        exact ⟨c, more, rfl, hc, rfl, rfl⟩
      · rw [if_neg hc] at h
        cases h
  · rintro ⟨c, more, rfl, hc, rfl, rfl⟩
    rw [name?, if_pos hc]

/-- No name starts with a digit. -/
theorem isDigit_of_startsName {c : Char} (h : startsName c = true) : isDigit c = false := by
  by_contra hd
  rw [Bool.not_eq_false] at hd
  have hname : startsName c = false :=
    of_isDigit (p := fun d => startsName d = false) (by decide) hd
  cases hname.symm.trans h

/-! ### The longest word -/

theorem startsNumber_eq_false {c : Char} {cs : List Char} (hc : isDigit c = false) (hp : c ≠ '.') :
    startsNumber (c :: cs) = false := by
  unfold startsNumber
  split
  · next heq =>
    cases heq
    exact absurd rfl hp
  · next heq =>
    cases heq
    exact hc
  · rfl

theorem startsNumber_mark {m : Mark} (hm : m ≠ .dot) (rest : List Char) :
    startsNumber (m.spelling ++ rest) = false := by
  cases m
  case dot => exact absurd rfl hm
  all_goals exact startsNumber_eq_false (by decide) (by decide)

/-- The characters that marks start with. -/
def markStarts : List Char :=
  ['+', '-', '*', '/', '%', '^', '>', '<', '=', '!', ',', '.', '(', ')', '[', ']']

theorem head_of_mark? {cs rest : List Char} {m : Mark} (h : mark? cs = some (m, rest)) :
    ∃ c more, cs = c :: more ∧ c ∈ markStarts := by
  rw [spelling_of_mark? h]
  cases m <;> exact ⟨_, _, rfl, by decide⟩

/-- No mark starts like a name or a quoted text. -/
theorem not_mark_start : ∀ c ∈ markStarts, startsName c = false ∧ ¬ (c = '"' ∨ c = '\x27') :=
  forall_mem_of_all (by decide)

theorem startsNumber_quote {q : Char} (hq : q = '"' ∨ q = '\x27') (cs : List Char) :
    startsNumber (q :: cs) = false := by
  rcases hq with rfl | rfl <;> exact startsNumber_eq_false (by decide) (by decide)

theorem ne_of_startsName {c d : Char} (hc : startsName c = true) (hd : startsName d = false) :
    c ≠ d := by
  rintro rfl
  rw [hc] at hd
  cases hd

theorem startsNumber_name {c : Char} (hc : startsName c = true) (cs : List Char) :
    startsNumber (c :: cs) = false :=
  startsNumber_eq_false (isDigit_of_startsName hc) (ne_of_startsName hc (by decide))

theorem token?_number {cs : List Char} (h : startsNumber cs = true) :
    token? cs = some (.number (number cs).1, (number cs).2) := by
  unfold token?
  rw [if_pos h]

theorem token?_text {q : Char} (hq : q = '"' ∨ q = '\x27') (cs : List Char) :
    token? (q :: cs) = (quotedBody q cs).map fun p => (.text (String.ofList p.1), p.2) := by
  unfold token?
  rw [startsNumber_quote hq, if_neg Bool.false_ne_true]
  dsimp only
  rw [if_pos hq]

theorem token?_name {cs rest : List Char} {s : String} (h : name? cs = some (s, rest)) :
    token? cs = some (.name s, rest) := by
  obtain ⟨c, more, rfl, hc, -⟩ := name?_eq_some_iff.mp h
  unfold token?
  rw [startsNumber_name hc, if_neg Bool.false_ne_true]
  dsimp only
  rw [if_neg (not_or.mpr ⟨ne_of_startsName hc (by decide), ne_of_startsName hc (by decide)⟩), h]

theorem token?_mark {cs rest : List Char} {m : Mark} (hn : startsNumber cs = false)
    (h : mark? cs = some (m, rest)) : token? cs = some (.mark m, rest) := by
  obtain ⟨c, more, rfl, hc⟩ := head_of_mark? h
  obtain ⟨hname, hquote⟩ := not_mark_start c hc
  have hnone : name? (c :: more) = none := by rw [name?, hname, if_neg Bool.false_ne_true]
  unfold token?
  rw [hn, if_neg Bool.false_ne_true]
  dsimp only
  rw [if_neg hquote, hnone, h]
  rfl

/-- The kinds of front tokens. -/
theorem token?_cases {cs rest : List Char} {t : Token} (h : token? cs = some (t, rest)) :
    (startsNumber cs = true ∧ t = .number (number cs).1 ∧ rest = (number cs).2) ∨
    (∃ q more s, (q = '"' ∨ q = '\x27') ∧ cs = q :: more ∧ quotedBody q more = some (s, rest) ∧
      t = .text (String.ofList s)) ∨
    (∃ s, name? cs = some (s, rest) ∧ t = .name s) ∨
    (∃ m, startsNumber cs = false ∧ mark? cs = some (m, rest) ∧ t = .mark m) := by
  unfold token? at h
  split at h
  · next hn =>
    cases h
    exact .inl ⟨hn, rfl, rfl⟩
  next hn =>
  split at h
  · cases h
  next c more =>
  split at h
  · next hq =>
    obtain ⟨⟨s, r⟩, hs, he⟩ := Option.map_eq_some_iff.mp h
    cases he
    exact .inr (.inl ⟨c, more, s, hq, rfl, hs, rfl⟩)
  split at h
  · next hname =>
    cases h
    exact .inr (.inr (.inl ⟨_, hname, rfl⟩))
  · obtain ⟨⟨m, r⟩, hm, he⟩ := Option.map_eq_some_iff.mp h
    cases he
    exact .inr (.inr (.inr ⟨m, by simpa using hn, hm, rfl⟩))

theorem token?_name_iff {cs rest : List Char} {s : String} :
    token? cs = some (.name s, rest) ↔ name? cs = some (s, rest) := by
  refine ⟨fun h => ?_, token?_name⟩
  obtain ⟨_, ht, _⟩ | ⟨_, _, _, _, _, _, ht⟩ | ⟨_, hs, ht⟩ | ⟨_, _, _, ht⟩ := token?_cases h
  all_goals cases ht
  exact hs

theorem token?_mark_iff {cs rest : List Char} {m : Mark} :
    token? cs = some (.mark m, rest) ↔ startsNumber cs = false ∧ mark? cs = some (m, rest) := by
  refine ⟨fun h => ?_, fun h => token?_mark h.1 h.2⟩
  obtain ⟨_, ht, _⟩ | ⟨_, _, _, _, _, _, ht⟩ | ⟨_, _, ht⟩ | ⟨_, hn, hm, ht⟩ := token?_cases h
  all_goals cases ht
  exact ⟨hn, hm⟩

theorem quote_ne_backslash {q : Char} (hq : q = '"' ∨ q = '\x27') : q ≠ '\\' := by
  rcases hq with rfl | rfl <;> decide

/-- The front token is a word of the language. -/
theorem lexeme_of_token? {cs rest : List Char} {t : Token} (h : token? cs = some (t, rest)) :
    ∃ w, cs = w ++ rest ∧ Lexeme w t := by
  obtain ⟨hn, rfl, rfl⟩ | ⟨q, more, s, hq, rfl, hs, rfl⟩ | ⟨s, hs, rfl⟩ | ⟨m, -, hm, rfl⟩ :=
    token?_cases h
  · obtain ⟨m, e, hcs, hm, he, hx⟩ := number_spec hn
    exact ⟨m ++ e, hcs, .number hm he hx⟩
  · obtain ⟨body, rfl, hbody⟩ := (quotedBody_iff (quote_ne_backslash hq)).mp hs
    exact ⟨q :: (body ++ [q]), by simp, .text hq hbody⟩
  · obtain ⟨c, more, rfl, hc, rfl, rfl⟩ := name?_eq_some_iff.mp hs
    exact ⟨c :: more.takeWhile continuesName, by simp [List.takeWhile_append_dropWhile],
      .name hc fun _ hd => List.mem_takeWhile_imp hd⟩
  · exact ⟨m.spelling, spelling_of_mark? hm, .mark m⟩

/-- A text that starts with a number leaves less than one character of it. -/
theorem length_number_dot_lt {rest : List Char} (h : startsNumber ('.' :: rest) = true) :
    (number ('.' :: rest)).2.length < rest.length := by
  rcases rest with _ | ⟨d, more⟩
  · exact absurd h (by decide)
  · have hd : Digits [d] := by
      intro c hc
      rw [List.mem_singleton.mp hc]
      exact h
    have hnone : Digits [] := fun _ hc => absurd hc List.not_mem_nil
    have hm : Mantissa ['.', d] := .point hnone hd (List.cons_ne_nil _ _)
    exact Nat.lt_succ_of_le (length_number_le hm .none more)

/-- **No front token is shorter than a word that stands there**, and none as long is another. -/
theorem token?_of_lexeme {w : List Char} {t : Token} (h : Lexeme w t) (rest : List Char) :
    ∃ u r, token? (w ++ rest) = some (u, r) ∧ r.length ≤ rest.length ∧ (r = rest → u = t) := by
  rcases h with @⟨m, e, x, hm, he, hx⟩ | @⟨q, body, s, hq, hbody⟩ | @⟨c, cs, hc, hcs⟩ | m
  · have hn : startsNumber (m ++ e ++ rest) = true := by
      rw [List.append_assoc]
      exact startsNumber_of_mantissa hm _
    refine ⟨_, _, token?_number hn, length_number_le hm he rest, fun heq => ?_⟩
    obtain ⟨m', e', hcs, -, -, hx'⟩ := number_spec hn
    rw [heq] at hcs
    rw [← List.append_cancel_right hcs, hx] at hx'
    cases hx'
    rfl
  · refine ⟨.text (String.ofList s), rest, ?_, Nat.le_refl _, fun _ => rfl⟩
    rw [List.cons_append, List.append_assoc, List.singleton_append, token?_text hq,
      (quotedBody_iff (quote_ne_backslash hq)).mpr ⟨body, rfl, hbody⟩]
    rfl
  · refine ⟨_, _, token?_name (name?_eq_some_iff.mpr ⟨c, cs ++ rest, rfl, hc, rfl, rfl⟩), ?_, ?_⟩
    · rw [List.dropWhile_append_of_pos hcs]
      exact (List.dropWhile_sublist _).length_le
    · rw [List.dropWhile_append_of_pos hcs, List.takeWhile_append_of_pos hcs]
      intro heq
      have : rest.takeWhile continuesName = [] := by
        have hsplit := List.takeWhile_append_dropWhile (p := continuesName) (l := rest)
        rw [heq] at hsplit
        simpa using hsplit
      rw [this, List.append_nil]
  · by_cases hn : startsNumber (m.spelling ++ rest) = true
    · by_cases hdot : m = .dot
      · -- digits come after the point, so the number is longer than the mark
        subst hdot
        have hlt := length_number_dot_lt hn
        exact ⟨_, _, token?_number hn, hlt.le, fun heq => absurd (congrArg List.length heq) hlt.ne⟩
      · rw [startsNumber_mark hdot] at hn
        cases hn
    · obtain ⟨n, r, hmark, hle⟩ := mark?_spelling m rest
      refine ⟨_, _, token?_mark (by simpa using hn) hmark, hle, fun heq => ?_⟩
      have hspelling := spelling_of_mark? hmark
      rw [heq] at hspelling
      rw [Mark.spelling_injective (List.append_cancel_right hspelling)]

/-- **Cutting off the front token is maximal munch.** -/
theorem munch_iff {cs rest : List Char} {t : Token} :
    Munch cs t rest ↔ token? cs = some (t, rest) := by
  constructor
  · rintro ⟨w, rfl, hw, hlongest⟩
    obtain ⟨u, r, htoken, hle, heq⟩ := token?_of_lexeme hw rest
    obtain ⟨v, hv, hlex⟩ := lexeme_of_token? htoken
    have hlen : v.length ≤ w.length := hlongest v u hlex ⟨r, hv.symm⟩
    have htotal := congrArg List.length hv
    rw [List.length_append, List.length_append] at htotal
    have hr : r = rest := (List.append_inj' hv (by omega)).2.symm
    rw [htoken, hr, heq hr]
  · intro h
    obtain ⟨w, rfl, hw⟩ := lexeme_of_token? h
    refine ⟨w, rfl, hw, ?_⟩
    rintro v u hv ⟨r, hr⟩
    obtain ⟨u', r', htoken, hle, -⟩ := token?_of_lexeme hv r
    rw [hr, h] at htoken
    cases htoken
    have htotal := congrArg List.length hr
    rw [List.length_append, List.length_append] at htotal
    omega

/-! ## What the marks mean -/

/-- The marks of sums and differences. -/
def Mark.additive? : Mark → Option Operator
  | plus => some .add
  | minus => some .sub
  | _ => none

/-- The marks of products, quotients and remainders. -/
def Mark.multiplicative? : Mark → Option Operator
  | star => some .mul
  | slash => some .div
  | doubleSlash => some .floorDiv
  | percent => some .mod
  | _ => none

/-- The two ways to write a power. -/
def Mark.power? : Mark → Option Operator
  | doubleStar | caret => some .pow
  | _ => none

/-- The marks of comparisons. -/
def Mark.comparison? : Mark → Option Comparison
  | above => some .gt
  | below => some .lt
  | atLeast => some .ge
  | atMost => some .le
  | same => some .eq
  | different => some .ne
  | _ => none

/-- The signs. -/
def Mark.sign? : Mark → Option Sign
  | minus => some .minus
  | plus => some .plus
  | _ => none

/-! ### The matchers of the parser -/

theorem spelling_of_token? {cs rest : List Char} {m : Mark}
    (h : token? cs = some (.mark m, rest)) : cs = m.spelling ++ rest :=
  spelling_of_mark? (token?_mark_iff.mp h).2

/-- A mark that is the beginning of no other word. -/
theorem token?_spelling (m : Mark) (rest : List Char) (hdot : m ≠ .dot := by decide)
    (hlonger : m.longer? = none := by rfl) :
    token? (m.spelling ++ rest) = some (.mark m, rest) := by
  refine token?_mark (startsNumber_mark hdot rest) (mark?_eq_some_iff.mpr ⟨rfl, fun c hc => ?_⟩)
  rw [hlonger] at hc
  cases hc

theorem token?_at (m : Mark) {cs rest : List Char} (h : trimLeft cs = m.spelling ++ rest)
    (hdot : m ≠ .dot := by decide) (hlonger : m.longer? = none := by rfl) :
    token? (trimLeft cs) = some (.mark m, rest) := by
  rw [h]
  exact token?_spelling m rest hdot hlonger

theorem isDigit_of_isBlank {c : Char} (h : isBlank c = true) : isDigit c = false := by
  by_contra hd
  rw [Bool.not_eq_false] at hd
  have hblank : isBlank c = false :=
    of_isDigit (p := fun d => isBlank d = false) (by decide) hd
  cases hblank.symm.trans h

/-- A point in front of a name is a mark, and not the beginning of a number. -/
theorem token?_dot {cs rest : List Char} {s : String} (h : name? (trimLeft cs) = some (s, rest)) :
    token? ('.' :: cs) = some (.mark .dot, cs) := by
  refine token?_mark ?_ rfl
  rcases cs with _ | ⟨c, more⟩
  · decide
  · change isDigit c = false
    by_cases hc : isBlank c = true
    · exact isDigit_of_isBlank hc
    · rw [trimLeft, List.dropWhile_cons_of_neg hc] at h
      obtain ⟨d, ds, hds, hd, -⟩ := name?_eq_some_iff.mp h
      cases hds
      exact isDigit_of_startsName hd

/-- A matcher for a kind of marks finds the front token if it is of this kind. -/
theorem matcher_iff {β : Type} {next : List Char → Option (β × List Char)} {kind : Mark → Option β}
    (hdot : kind .dot = none)
    (hnext : ∀ cs, next cs = (mark? cs).bind fun p => (kind p.1).map (·, p.2))
    {cs rest : List Char} {b : β} : next cs = some (b, rest) ↔
      ∃ m, token? cs = some (.mark m, rest) ∧ kind m = some b := by
  rw [hnext, Option.bind_eq_some_iff]
  constructor
  · rintro ⟨⟨m, r⟩, hm, hb⟩
    obtain ⟨b', hkind, he⟩ := Option.map_eq_some_iff.mp hb
    cases he
    have hn : startsNumber cs = false := by
      rw [spelling_of_mark? hm]
      refine startsNumber_mark ?_ r
      rintro rfl
      rw [hdot] at hkind
      cases hkind
    exact ⟨m, token?_mark hn hm, hkind⟩
  · rintro ⟨m, hm, hkind⟩
    exact ⟨(m, rest), (token?_mark_iff.mp hm).2, by rw [hkind]; rfl⟩

/-- The matchers for operators take the marks of their kind. -/
theorem matchers_eq (cs : List Char) :
    additive? cs = ((mark? cs).bind fun p => p.1.additive?.map (·, p.2)) ∧
    multiplicative? cs = ((mark? cs).bind fun p => p.1.multiplicative?.map (·, p.2)) ∧
    comparison? cs = ((mark? cs).bind fun p => p.1.comparison?.map (·, p.2)) ∧
    sign? cs = ((mark? cs).bind fun p => p.1.sign?.map (·, p.2)) ∧
    (power? cs).map (Operator.pow, ·) = (mark? cs).bind fun p => p.1.power?.map (·, p.2) := by
  unfold mark?
  split
  all_goals
    refine ⟨?_, ?_, ?_, ?_, ?_⟩
    · first | rfl | (rw [additive?] <;> first | rfl | assumption)
    · first | rfl | (rw [multiplicative?] <;> first | rfl | assumption)
    · first | rfl | (rw [comparison?] <;> first | rfl | assumption | simp_all)
    · first | rfl | (rw [sign?] <;> first | rfl | assumption)
    · first | rfl | (rw [power?] <;> first | rfl | assumption | simp_all)

theorem additive?_iff {cs rest : List Char} {op : Operator} : additive? cs = some (op, rest) ↔
    ∃ m, token? cs = some (.mark m, rest) ∧ m.additive? = some op :=
  matcher_iff rfl fun cs => (matchers_eq cs).1

theorem multiplicative?_iff {cs rest : List Char} {op : Operator} :
    multiplicative? cs = some (op, rest) ↔
      ∃ m, token? cs = some (.mark m, rest) ∧ m.multiplicative? = some op :=
  matcher_iff rfl fun cs => (matchers_eq cs).2.1

theorem comparison?_iff {cs rest : List Char} {op : Comparison} :
    comparison? cs = some (op, rest) ↔
      ∃ m, token? cs = some (.mark m, rest) ∧ m.comparison? = some op :=
  matcher_iff rfl fun cs => (matchers_eq cs).2.2.1

theorem sign?_iff {cs rest : List Char} {sign : Sign} : sign? cs = some (sign, rest) ↔
    ∃ m, token? cs = some (.mark m, rest) ∧ m.sign? = some sign :=
  matcher_iff rfl fun cs => (matchers_eq cs).2.2.2.1

theorem power?_iff {cs rest : List Char} : power? cs = some rest ↔
    ∃ m, token? cs = some (.mark m, rest) ∧ m.power? = some .pow := by
  have hmatch : power? cs = some rest ↔
      (power? cs).map (Operator.pow, ·) = some (Operator.pow, rest) := by
    rcases power? cs with _ | r <;> simp
  exact hmatch.trans (@matcher_iff _ (fun cs => (power? cs).map (Operator.pow, ·)) Mark.power? rfl
    (fun cs => (matchers_eq cs).2.2.2.2) cs rest .pow)

theorem keyword?_iff {cs value : List Char} {k : String} : keyword? cs = some (k, value) ↔
    ∃ rest, token? cs = some (.name k, rest) ∧
      token? (trimLeft rest) = some (.mark .assign, value) := by
  unfold keyword?
  rw [Option.bind_eq_some_iff]
  constructor
  · rintro ⟨⟨s, rest⟩, hs, hv⟩
    dsimp only at hv
    split at hv
    · cases hv
    · next hne heq =>
      cases hv
      refine ⟨rest, token?_name hs, ?_⟩
      rw [heq]
      refine token?_mark (startsNumber_eq_false (by decide) (by decide))
        (mark?_eq_some_iff.mpr ⟨rfl, ?_⟩)
      rintro c hc hhead
      cases hc
      obtain ⟨more, rfl⟩ := List.head?_eq_some_iff.mp hhead
      exact hne more rfl
    · cases hv
  · rintro ⟨rest, hs, hv⟩
    refine ⟨(k, rest), token?_name_iff.mp hs, ?_⟩
    obtain ⟨hrest, hne⟩ := mark?_eq_some_iff.mp (token?_mark_iff.mp hv).2
    change trimLeft rest = '=' :: value at hrest
    dsimp only
    rw [hrest]
    split
    · next heq =>
      cases heq
      exact absurd rfl (hne '=' rfl)
    · next heq =>
      cases heq
      rfl
    · next h => exact absurd rfl (h value)

end TickBacktest.Expression
