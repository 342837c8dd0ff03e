import TickBacktest.Proofs.Expression.Printing
import TickBacktest.Proofs.Expression.Sandbox

/-! # Expressions made of expressions

A text is put in parentheses and an operator before it, or between two of them (`Compound.text`).
A closing parenthesis ends every word but a quoted text, which has ended where it is a word
(`token?_close`), so an expression in parentheses has the tokens that it has alone
(`Spells.close`). What is read has no second tree (`Reads.unique`): the tree of the compound is made
of the trees of its parts (`Compound.tree_of_parse`), and so is the formula
(`Compound.formula_of_compile`). -/

namespace TickBacktest.Expression

open Decimal Text

/-! ## A closing parenthesis -/

section

variable {cs mid : List Char} (rest : List Char)

theorem takeWhile_close {p : Char → Bool} (hp : p ')' = false) (cs : List Char) :
    (cs ++ ')' :: rest).takeWhile p = cs.takeWhile p := by
  induction cs with
  | nil => exact List.takeWhile_cons_of_neg (by simp [hp])
  | cons c cs ih => rw [List.cons_append, List.takeWhile_cons, List.takeWhile_cons, ih]

theorem dropWhile_close {p : Char → Bool} (hp : p ')' = false) (cs : List Char) :
    (cs ++ ')' :: rest).dropWhile p = cs.dropWhile p ++ ')' :: rest := by
  induction cs with
  | nil => exact List.dropWhile_cons_of_neg (by simp [hp])
  | cons c cs ih =>
    rw [List.cons_append, List.dropWhile_cons, List.dropWhile_cons, ih]
    split <;> rfl

theorem trimLeft_close (cs : List Char) :
    trimLeft (cs ++ ')' :: rest) = trimLeft cs ++ ')' :: rest :=
  dropWhile_close rest (by decide) cs

theorem takeSign_close (cs : List Char) :
    takeSign (cs ++ ')' :: rest) = ((takeSign cs).1, (takeSign cs).2 ++ ')' :: rest) := by
  rcases cs with _ | ⟨c, cs⟩
  · rfl
  · unfold takeSign
    rw [List.cons_append]
    split <;> simp_all

theorem fractionPart_close (cs : List Char) :
    fractionPart (cs ++ ')' :: rest) =
      ((fractionPart cs).1, (fractionPart cs).2 ++ ')' :: rest) := by
  have hother : ∀ ds : List Char, ds.head? ≠ some '.' → fractionPart ds = ([], ds) := by
    intro ds hds
    unfold fractionPart
    split
    · exact absurd rfl hds
    · rfl
  rcases cs with _ | ⟨c, cs⟩
  · rfl
  · by_cases hc : c = '.'
    · subst hc
      rw [List.cons_append, fractionPart, fractionPart, takeWhile_close rest (by decide),
        dropWhile_close rest (by decide)]
    · have hhead : ∀ ds : List Char, (c :: ds).head? ≠ some '.' :=
        fun _ h => hc (Option.some.inj h)
      rw [hother _ (hhead cs), List.cons_append, hother _ (hhead _)]

theorem exponentPart_close (cs : List Char) :
    exponentPart (cs ++ ')' :: rest) =
      ((exponentPart cs).1, (exponentPart cs).2 ++ ')' :: rest) := by
  rcases cs with _ | ⟨c, cs⟩
  · rfl
  · rw [List.cons_append, exponentPart, exponentPart]
    by_cases hc : c = 'e' ∨ c = 'E'
    · rw [if_pos hc, if_pos hc, takeSign_close]
      dsimp only
      rw [takeWhile_close rest (by decide), dropWhile_close rest (by decide)]
      split <;> rfl
    · rw [if_neg hc, if_neg hc]
      rfl

theorem number_close (cs : List Char) :
    number (cs ++ ')' :: rest) = ((number cs).1, (number cs).2 ++ ')' :: rest) := by
  unfold number
  rw [takeWhile_close rest (by decide), dropWhile_close rest (by decide), fractionPart_close]
  dsimp only
  rw [exponentPart_close]

theorem startsNumber_close (cs : List Char) :
    startsNumber (cs ++ ')' :: rest) = startsNumber cs := by
  rcases cs with _ | ⟨c, cs⟩
  · rfl
  · by_cases hc : c = '.'
    · subst hc
      rcases cs with _ | ⟨d, cs⟩ <;> rfl
    · by_cases hd : isDigit c = true
      · rw [List.cons_append, startsNumber_of_isDigit hd, startsNumber_of_isDigit hd]
      · have hd : isDigit c = false := by simpa using hd
        rw [List.cons_append, startsNumber_eq_false hd hc, startsNumber_eq_false hd hc]

/-- **A closing parenthesis after a text leaves its front token as it is.** -/
theorem token?_close {t : Token} (h : token? cs = some (t, mid)) :
    token? (cs ++ ')' :: rest) = some (t, mid ++ ')' :: rest) := by
  obtain ⟨hn, rfl, rfl⟩ | ⟨q, more, s, hq, rfl, hs, rfl⟩ | ⟨s, hs, rfl⟩ | ⟨m, hn, hm, rfl⟩ :=
    token?_cases h
  · rw [token?_number ((startsNumber_close rest cs).trans hn), number_close]
  · obtain ⟨body, rfl, hbody⟩ := (quotedBody_iff (quote_ne_backslash hq)).mp hs
    have hclose : quotedBody q (body ++ q :: mid ++ ')' :: rest) = some (s, mid ++ ')' :: rest) :=
      (quotedBody_iff (quote_ne_backslash hq)).mpr ⟨body, by simp, hbody⟩
    rw [List.cons_append, token?_text hq, hclose]
    rfl
  · obtain ⟨c, more, rfl, hc, rfl, rfl⟩ := name?_eq_some_iff.mp hs
    refine token?_name (name?_eq_some_iff.mpr ⟨c, more ++ ')' :: rest, rfl, hc, ?_, ?_⟩)
    · rw [takeWhile_close rest (by decide)]
    · rw [dropWhile_close rest (by decide)]
  · obtain ⟨rfl, hlonger⟩ := mark?_eq_some_iff.mp hm
    refine token?_mark ((startsNumber_close rest _).trans hn)
      (mark?_eq_some_iff.mpr ⟨List.append_assoc _ _ _, ?_⟩)
    intro c hc hhead
    rcases mid with _ | ⟨d, mid⟩
    · -- no mark grows by a closing parenthesis
      cases hhead
      cases m <;> cases hc
    · exact hlonger c hc hhead

theorem Spells.close {ts : List Token} (h : Spells cs ts []) :
    Spells (cs ++ ')' :: rest) ts (')' :: rest) := by
  induction ts generalizing cs with
  | nil =>
    change trimLeft cs = [] at h
    show trimLeft (cs ++ ')' :: rest) = _
    rw [trimLeft_close, h]
    rfl
  | cons t ts ih =>
    obtain ⟨mid, ht, hts⟩ := h
    refine ⟨mid ++ ')' :: rest, ?_, ih hts⟩
    rw [trimLeft_close]
    exact token?_close rest ht

end

/-! ## In parentheses -/

section

variable {N M : ℕ} {cs rest : List Char} {v w : Node}

theorem reads_of_parse {text : String} (h : parse text = .ok v) :
    Reads (.comparison v) maxNesting text.toList [] := by
  obtain ⟨n, hn, ts, ht, hd⟩ := derives_of_parse h
  exact ⟨n, hn, ts, hd, tokens_iff.mp ht⟩

/-- **A text has one tree**, at whatever level it is read. -/
theorem Reads.unique (h : Reads (.comparison v) N cs []) (h' : Reads (.comparison w) M cs []) :
    v = w := by
  obtain ⟨n, -, ts, hd, hs⟩ := h
  obtain ⟨m, -, us, hd', hs'⟩ := h'
  obtain ⟨p, hp, rfl, -⟩ := hd.isRead (le_max_left n m) hs (.inl rfl)
  obtain ⟨q, hq, rfl, -⟩ := hd'.isRead (le_max_right n m) hs' (.inl rfl)
  rw [hp] at hq
  cases hq
  rfl

/-- An expression in parentheses is an operand of any operator. -/
theorem Reads.enclosed (h : Reads (.comparison v) N cs []) (rest : List Char) :
    Reads (.suffixed v) N ('(' :: (cs ++ ')' :: rest)) rest := by
  obtain ⟨n, hn, ts, hd, hs⟩ := h
  have hinner : Reads (.comparison v) N (cs ++ ')' :: rest) (')' :: rest) :=
    ⟨n, hn, ts, hd, hs.close rest⟩
  exact (hinner.parens (trimLeft_cons (by decide) _) (trimLeft_cons (by decide) _)).map
    .suffixedOfPrimary

end

/-! ## Compounds -/

/-- Two texts in parentheses with an operator between them. -/
def joined (symbol a b : String) : String := s!"({a}) {symbol} ({b})"

theorem toList_joined (symbol a b : String) : (joined symbol a b).toList =
    '(' :: (a.toList ++ ')' :: ' ' :: (symbol.toList ++ ' ' :: '(' :: (b.toList ++ [')']))) := by
  simp [joined, toString]

/-- The ways to put an operator to an expression `a`, or between `a` and another one, `b`. -/
inductive Compound where
  | negated
  | before (op : Operator)
  | after (op : Operator)
  | compared (op : Comparison)
  deriving DecidableEq, Repr

namespace Compound

/-- The compound as it is written. -/
def text : Compound → String → String → String
  | negated, a, _ => s!"-({a})"
  | before op, a, b => joined op.symbol a b
  | after op, a, b => joined op.symbol b a
  | compared op, a, b => joined op.symbol a b

/-- The tree of the compound of two trees. -/
def tree : Compound → Node → Node → Node
  | negated, n, _ => .signed .minus n
  | before op, n, m => .binary op n m
  | after op, n, m => .binary op m n
  | compared op, n, m => .compare n [(op, m)]

/-- The formula of the compound of two formulas. -/
def formula : Compound → Formula → Formula → Formula
  | negated, e, _ => .signed .minus e
  | before op, e, d => .binary op e d
  | after op, e, d => .binary op d e
  | compared op, e, d => .compare e [(op, d)]

end Compound

section

variable {N : ℕ} {v w : Node} {a b : String}

theorem Reads.secondOperand (h : Reads (.comparison v) N b.toList []) :
    Reads (.unary v) N (' ' :: '(' :: (b.toList ++ [')'])) [] :=
  (h.enclosed []).unary.front (trimLeft_blank _)

/-- An operation on two expressions in parentheses. -/
theorem Reads.operated (h : Reads (.comparison v) N a.toList [])
    (h' : Reads (.comparison w) N b.toList []) (op : Operator) :
    Reads (.comparison (.binary op v w)) (N + 2) (joined op.symbol a b).toList [] := by
  rw [toList_joined, ← op.spelling_mark]
  have hmark : token? (trimLeft (' ' :: (op.mark.spelling ++ ' ' :: '(' :: (b.toList ++ [')'])))) =
      some (.mark op.mark, ' ' :: '(' :: (b.toList ++ [')'])) :=
    token?_mark_of_blank (by cases op <;> decide) _
  have hleft := h.enclosed (' ' :: (op.mark.spelling ++ ' ' :: '(' :: (b.toList ++ [')'])))
  have hright := h'.secondOperand
  refine Reads.comparison ?_
  cases op
  case pow => exact ((hleft.mono (Nat.le_succ N)).power hmark rfl hright (Nat.lt_succ_self N)).sum
  case add | sub =>
    exact (hleft.unary.sum.infixed hmark (hright.map .termOfUnary) (.sum rfl)).mono (Nat.le_succ N)
  case mul | div | mod | floorDiv =>
    exact (((hleft.unary.map .termOfUnary).infixed hmark hright (.term rfl)).map .sumOfTerm).mono
      (Nat.le_succ N)

/-- A comparison of two expressions in parentheses. -/
theorem Reads.compared (h : Reads (.comparison v) N a.toList [])
    (h' : Reads (.comparison w) N b.toList []) (op : Comparison) :
    Reads (.comparison (.compare v [(op, w)])) (N + 1) (joined op.symbol a b).toList [] := by
  rw [toList_joined, ← op.spelling_mark]
  have hmark : token? (trimLeft (' ' :: (op.mark.spelling ++ ' ' :: '(' :: (b.toList ++ [')'])))) =
      some (.mark op.mark, ' ' :: '(' :: (b.toList ++ [')'])) :=
    token?_mark_of_blank (by cases op <;> decide) _
  have hlinks : Reads (.links [(op, w)]) N
      (' ' :: (op.mark.spelling ++ ' ' :: '(' :: (b.toList ++ [')']))) [] :=
    Reads.link hmark op.comparison?_mark h'.secondOperand.sum reads_noLinks
  exact (h.enclosed _).unary.sum.chained hlinks

theorem Reads.negated (h : Reads (.comparison v) N a.toList []) :
    Reads (.comparison (.signed .minus v)) (N + 2) (s!"-({a})").toList [] := by
  have htext : (s!"-({a})").toList = '-' :: '(' :: (a.toList ++ [')']) := by simp [toString]
  have hsign : token? (trimLeft ('-' :: '(' :: (a.toList ++ [')']))) =
      some (.mark .minus, '(' :: (a.toList ++ [')'])) :=
    token?_at .minus (trimLeft_cons (by decide) _)
  rw [htext]
  exact (Reads.signed hsign rfl (h.enclosed []).unary).sum.comparison

end

/-- What compiles has a tree, and the formula is this tree with its names resolved. -/
theorem exists_tree_of_compile {text : String} {c : Compiled} (h : compile text = .ok c) :
    ∃ n, parse text = .ok n ∧ resolve n = .ok c.formula := by
  rcases ha : accept text with r | n
  · rw [compile_of_reject ha] at h
    cases h
  · obtain ⟨e, he, hc⟩ := compile_of_accept ha
    rw [h] at hc
    cases hc
    exact ⟨n, (accept_ok_iff.mp ha).2.2.1, he⟩

namespace Compound

variable {a b : String} {n m t : Node}

/-- **The tree of a compound is made of the trees of its parts**, if the compound is read. -/
theorem tree_of_parse (c : Compound) (ha : parse a = .ok n) (hb : parse b = .ok m)
    (h : parse (c.text a b) = .ok t) : t = c.tree n m := by
  have hn := reads_of_parse ha
  have hm := reads_of_parse hb
  have hc : Reads (.comparison (c.tree n m)) (maxNesting + 2) (c.text a b).toList [] := by
    cases c with
    | negated => exact hn.negated
    | before op => exact hn.operated hm op
    | after op => exact hm.operated hn op
    | compared op => exact (hn.compared hm op).mono (Nat.le_succ _)
  exact (reads_of_parse h).unique hc

/-- The formula of a compound is made of the formulas of its parts. -/
theorem formula_of_resolve (c : Compound) {f : Formula} (h : resolve (c.tree n m) = .ok f) :
    ∃ e d, resolve n = .ok e ∧ f = c.formula e d := by
  cases c with
  | negated =>
    obtain ⟨e, he, h⟩ := bind_ok_iff.mp h
    cases h
    exact ⟨e, e, he, rfl⟩
  | before op =>
    obtain ⟨e, he, h⟩ := bind_ok_iff.mp h
    obtain ⟨d, -, h⟩ := bind_ok_iff.mp h
    cases h
    exact ⟨e, d, he, rfl⟩
  | after op =>
    obtain ⟨d, -, h⟩ := bind_ok_iff.mp h
    obtain ⟨e, he, h⟩ := bind_ok_iff.mp h
    cases h
    exact ⟨e, d, he, rfl⟩
  | compared op =>
    obtain ⟨e, he, h⟩ := bind_ok_iff.mp h
    obtain ⟨links, hlinks, h⟩ := bind_ok_iff.mp h
    obtain ⟨d, -, hlinks⟩ := bind_ok_iff.mp hlinks
    cases h
    cases hlinks
    exact ⟨e, d, he, rfl⟩

/-- **The formula of a compound that compiles has the formula of its part as its part.** -/
theorem formula_of_compile (c : Compound) {ca cc : Compiled} (ha : compile a = .ok ca)
    (hb : parse b = .ok m) (h : compile (c.text a b) = .ok cc) :
    ∃ d, cc.formula = c.formula ca.formula d := by
  obtain ⟨n, hn, hrn⟩ := exists_tree_of_compile ha
  obtain ⟨t, ht, hrt⟩ := exists_tree_of_compile h
  obtain rfl := c.tree_of_parse hn hb ht
  obtain ⟨e, d, he, hf⟩ := c.formula_of_resolve hrt
  rw [hrn] at he
  cases he
  exact ⟨d, hf⟩

end Compound

end TickBacktest.Expression
