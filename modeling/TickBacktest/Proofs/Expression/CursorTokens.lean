import TickBacktest.Proofs.Expression.Cursor
import TickBacktest.Proofs.Expression.Lexeme

/-! # Tokens at a cursor

Names, numbers, quoted texts and operators as they are read at a cursor. Each of them comes to where
the token ends in the text, and finds what the token is, whatever characters stand there: a name is
cut out at the byte of the first character that does not go on with it, a number between the byte
where it starts and the one where the cursor stops, which is set back before an `e` without
digits. -/

namespace TickBacktest.Expression

open Decimal Text

section

variable (text : List Char)

/-! ## Names -/

/-- The characters of a text, each with the byte where it starts, the first at the byte `n`. -/
def charIndices : ℕ → List Char → List (ℕ × Char)
  | _, [] => []
  | n, c :: cs => (n, c) :: charIndices (n + c.utf8Size) cs

/-- The byte of the first character that does not go on with a name, or the end of the text. -/
def nameEnd (c : Char) (cs : List Char) : ℕ :=
  (((charIndices c.utf8Size cs).find? fun i => !continuesName i.2).map (·.1)).getD
    (utf8Length (c :: cs))

/-- The name at the cursor, which stays there. -/
def nameAt (pos : ℕ) : Reading (Option (List Char)) := do
  match ← remaining text pos with
  | [] => return none
  | c :: cs => if startsName c then return some (← upTo (c :: cs) (nameEnd c cs)) else return none

/-- A name must stand at the cursor, after blanks. -/
def identifierAt (pos : ℕ) : Reading (String × ℕ) := do
  let pos ← skip text pos
  match ← nameAt text pos with
  | none => failAt pos (.expectedIdentifier (← peek text pos))
  | some w => return (String.ofList w, ← seat text (pos + utf8Length w))

/-- The name of a keyword argument at the cursor, which stays there: an equals sign follows that
does not start a comparison. -/
def keywordAt (pos : ℕ) : Reading (Option (List Char)) := do
  match ← nameAt text pos with
  | none => return none
  | some w =>
    let after := trimLeft (← onFrom (← remaining text pos) (utf8Length w))
    if ['='].isPrefixOf after ∧ ¬ ['=', '='].isPrefixOf after then return some w else return none

/-! ## Numbers -/

/-- The cursor moves over digits and at most one point, and counts the digits. -/
def digitsAt : ℕ → ℕ → Bool → ℕ → Reading (ℕ × ℕ)
  | 0, _, _, _ => .error (.overrun .endless)
  | fuel + 1, digits, pointed, pos => do
    match ← peek text pos with
    | none => return (digits, pos)
    | some c =>
      if isDigit c then digitsAt fuel (digits + 1) pointed (← advance text pos).2
      else if c = '.' ∧ ¬ pointed then digitsAt fuel digits true (← advance text pos).2
      else return (digits, pos)

/-- The cursor moves over a sign, if there is one. -/
def signSkip (pos : ℕ) : Reading ℕ := do
  match ← peek text pos with
  | some c => if c = '+' ∨ c = '-' then return (← advance text pos).2 else return pos
  | none => return pos

/-- The cursor moves over an exponent, and back to where it was if that has no digits. -/
def exponentSkip (pos : ℕ) : Reading ℕ := do
  match ← peek text pos with
  | none => return pos
  | some c =>
    if c = 'e' ∨ c = 'E' then
      let after ← signSkip text (← advance text pos).2
      let digits ← advanceWhile text isDigit (text.length + 1) 0 after
      if digits.1 = 0 then seat text pos else return digits.2
    else return pos

/-- The number at the cursor, cut out of the text and then read. -/
def numberAt (start : ℕ) : Reading (Float × ℕ) := do
  let digits ← digitsAt text (text.length + 1) 0 false start
  if digits.1 = 0 then .error (.fault ⟨.noDigits, ← seat text start⟩)
  else
    let pos ← exponentSkip text digits.2
    let word ← upTo (← onFrom text start) (← minus pos start)
    match float? word with
    | some x => return (x, pos)
    | none => .error (.fault ⟨.noNumber word, start⟩)

/-! ## Quoted texts -/

/-- A text up to its closing quote, after what was read of it so far. -/
def quotedAt (quote : Char) (start : ℕ) : ℕ → List Char → ℕ → Reading (List Char × ℕ)
  | 0, _, _ => .error (.overrun .endless)
  | fuel + 1, value, pos => do
    let (first, pos) ← advance text pos
    match first with
    | none => failAt start .unterminatedText
    | some c =>
      if c = quote then return (value, pos)
      else if c = '\\' then
        let second ← advance text pos
        quotedAt quote start fuel (value ++ second.1.toList) second.2
      else quotedAt quote start fuel (value ++ [c]) pos

/-- The text whose opening quote stands at the cursor. -/
def stringAt (quote : Char) (start : ℕ) : Reading (String × ℕ) := do
  let (value, pos) ← quotedAt text quote start (text.length + 1) [] (← advance text start).2
  return (String.ofList value, pos)

/-! ## Operators -/

/-- The first of some words that stands at the cursor, which then moves beyond it. -/
def firstAt {β : Type} : List (List Char × β) → ℕ → Reading (Option β × ℕ)
  | [], pos => return (none, pos)
  | (w, b) :: words, pos => do
    let (taken, pos) ← consume text w pos
    if taken then return (some b, pos) else firstAt words pos

/-- The words for comparisons. -/
def comparisonWords : List (List Char × Comparison) :=
  [(['>', '='], .ge), (['<', '='], .le), (['=', '='], .eq), (['!', '='], .ne), (['>'], .gt),
    (['<'], .lt)]

/-- The words for products, quotients and remainders. -/
def productWords : List (List Char × Operator) :=
  [(['/', '/'], .floorDiv), (['*'], .mul), (['/'], .div), (['%'], .mod)]

/-- The words for powers. -/
def powerWords : List (List Char × Unit) := [(['*', '*'], ()), (['^'], ())]

def comparisonAt (pos : ℕ) : Reading (Option Comparison × ℕ) := firstAt text comparisonWords pos

def powerAt (pos : ℕ) : Reading (Option Unit × ℕ) := firstAt text powerWords pos

/-- Two stars are a power, not a product. -/
def productAt (pos : ℕ) : Reading (Option Operator × ℕ) := do
  if ['*', '*'].isPrefixOf (← remaining text pos) then return (none, pos)
  else firstAt text productWords pos

/-- The plus or minus at the cursor. -/
def plusOrMinusAt {β : Type} (plus minus : β) (pos : ℕ) : Reading (Option β × ℕ) := do
  match ← peek text pos with
  | some '+' => return (some plus, (← advance text pos).2)
  | some '-' => return (some minus, (← advance text pos).2)
  | _ => return (none, pos)

end

/-! ## Where names end -/

section

variable {text cs rest : List Char} {pos : ℕ} {s : String}

theorem find_charIndices (p : Char → Bool) (n : ℕ) (cs : List Char) :
    (((charIndices n cs).find? fun i => !p i.2).map (·.1)).getD (n + utf8Length cs) =
      n + utf8Length (cs.takeWhile p) := by
  induction cs generalizing n with
  | nil => rfl
  | cons c cs ih =>
    rw [charIndices, List.find?_cons]
    cases hc : p c
    · rw [Bool.not_false, List.takeWhile_cons_of_neg (by rw [hc]; exact Bool.false_ne_true)]
      rfl
    · rw [Bool.not_true, List.takeWhile_cons_of_pos hc, utf8Length_cons, utf8Length_cons,
        ← Nat.add_assoc, ← Nat.add_assoc]
      exact ih (n + c.utf8Size)

theorem nameEnd_eq (c : Char) (cs : List Char) :
    nameEnd c cs = utf8Length (c :: cs.takeWhile continuesName) := by
  unfold nameEnd
  rw [utf8Length_cons, utf8Length_cons]
  exact find_charIndices continuesName c.utf8Size cs

/-- The name at the cursor is cut out of the text there. -/
theorem nameAt_of_some (h : At text pos cs) (hname : name? cs = some (s, rest)) :
    ∃ w, nameAt text pos = .ok (some w) ∧ cs = w ++ rest ∧ s = String.ofList w := by
  obtain ⟨c, more, rfl, hc, rfl, rfl⟩ := name?_eq_some_iff.mp hname
  have hcut : c :: more = c :: more.takeWhile continuesName ++ more.dropWhile continuesName := by
    rw [List.cons_append, List.takeWhile_append_dropWhile]
  refine ⟨c :: more.takeWhile continuesName, ?_, hcut, rfl⟩
  have hupTo : upTo (c :: more) (nameEnd c more) = .ok (c :: more.takeWhile continuesName) := by
    rw [nameEnd_eq]
    nth_rewrite 1 [hcut]
    exact upTo_append _ _
  unfold nameAt
  rw [remaining_of_at h, ok_bind]
  dsimp only
  rw [if_pos hc, hupTo]
  rfl

theorem nameAt_of_none (h : At text pos cs) (hname : name? cs = none) :
    nameAt text pos = .ok none := by
  unfold nameAt
  rw [remaining_of_at h, ok_bind]
  rcases cs with _ | ⟨c, more⟩
  · rfl
  · have hc : ¬ startsName c = true := by
      intro hc
      rw [name?, if_pos hc] at hname
      cases hname
    dsimp only
    rw [if_neg hc]
    rfl

theorem identifierAt_of_some (h : At text pos cs) (hname : name? (trimLeft cs) = some (s, rest)) :
    Comes text (identifierAt text pos) s rest := by
  obtain ⟨pos', hskip, h'⟩ := skip_of_at h
  obtain ⟨w, hw, hcs, rfl⟩ := nameAt_of_some h' hname
  rw [hcs] at h'
  unfold identifierAt
  rw [hskip, ok_bind, hw, ok_bind]
  dsimp only
  rw [seat_of_at h'.move]
  exact ⟨_, rfl, h'.move⟩

theorem identifierAt_of_none (h : At text pos cs) (hname : name? (trimLeft cs) = none) :
    ∃ pos', identifierAt text pos = failAt pos' (.expectedIdentifier (trimLeft cs).head?) ∧
      At text pos' (trimLeft cs) := by
  obtain ⟨pos', hskip, h'⟩ := skip_of_at h
  refine ⟨pos', ?_, h'⟩
  unfold identifierAt
  rw [hskip, ok_bind, nameAt_of_none h' hname, ok_bind]
  dsimp only
  rw [peek_of_at h']
  rfl

/-- The name at the cursor is taken for a keyword by what follows it. -/
theorem keywordAt_of_name (h : At text pos cs) (hname : name? cs = some (s, rest)) :
    ∃ w, cs = w ++ rest ∧ s = String.ofList w ∧ keywordAt text pos =
      .ok (if ['='].isPrefixOf (trimLeft rest) ∧ ¬ ['=', '='].isPrefixOf (trimLeft rest) then
        some w else none) := by
  obtain ⟨w, hw, rfl, rfl⟩ := nameAt_of_some h hname
  refine ⟨w, rfl, rfl, ?_⟩
  unfold keywordAt
  rw [hw, ok_bind]
  dsimp only
  rw [remaining_of_at h, ok_bind, onFrom_of_at ⟨w, rfl, rfl⟩, ok_bind]
  split <;> rfl

theorem keywordAt_of_some {value : List Char} (h : At text pos cs)
    (hkey : keyword? cs = some (s, value)) : ∃ w rest, keywordAt text pos = .ok (some w) ∧
      cs = w ++ rest ∧ s = String.ofList w ∧ trimLeft rest = '=' :: value := by
  obtain ⟨⟨name, rest⟩, hname, hmatch⟩ := Option.bind_eq_some_iff.mp hkey
  obtain ⟨w, hcs, hs, hw⟩ := keywordAt_of_name h hname
  dsimp only at hmatch
  split at hmatch
  · cases hmatch
  · next value' hsame hrest =>
    cases hmatch
    refine ⟨w, rest, ?_, hcs, hs, hrest⟩
    rw [hw, hrest, if_pos]
    refine ⟨rfl, fun hp => ?_⟩
    obtain ⟨more, hmore⟩ := List.isPrefixOf_iff_prefix.mp hp
    cases hmore
    exact hsame _ rfl
  · cases hmatch

theorem keywordAt_of_none (h : At text pos cs) (hkey : keyword? cs = none) :
    keywordAt text pos = .ok none := by
  rcases hname : name? cs with _ | ⟨name, rest⟩
  · unfold keywordAt
    rw [nameAt_of_none h hname]
    rfl
  · obtain ⟨w, -, -, hw⟩ := keywordAt_of_name h hname
    unfold keyword? at hkey
    rw [hname, Option.bind_some] at hkey
    dsimp only at hkey
    rw [hw]
    split at hkey
    · next more hrest => rw [hrest, if_neg fun hp => hp.2 rfl]
    · cases hkey
    · next hassign =>
      rw [if_neg]
      rintro ⟨hp, -⟩
      obtain ⟨more, hmore⟩ := List.isPrefixOf_iff_prefix.mp hp
      exact hassign more hmore.symm

end

/-! ## Where numbers end -/

section

variable {text cs rest : List Char} {pos fuel : ℕ}

/-- After the point only digits go on. -/
theorem digitsAt_pointed_eq (fuel n pos : ℕ) :
    digitsAt text fuel n true pos = advanceWhile text isDigit fuel n pos := by
  induction fuel generalizing n pos with
  | zero => rfl
  | succ fuel ih =>
    rw [digitsAt, advanceWhile]
    refine bind_congr fun first => ?_
    rcases first with _ | c
    · rfl
    · dsimp only
      by_cases hc : isDigit c = true
      · rw [if_pos hc, if_pos hc]
        exact bind_congr fun _ => ih _ _
      · rw [if_neg hc, if_neg hc, if_neg fun hpoint => hpoint.2 rfl]

theorem digitsAt_of_at (h : At text pos cs) (hfuel : cs.length < fuel) (n : ℕ) :
    Comes text (digitsAt text fuel n false pos)
      (n + (cs.takeWhile isDigit ++ (fractionPart (cs.dropWhile isDigit)).1).length)
      (fractionPart (cs.dropWhile isDigit)).2 := by
  induction fuel generalizing cs n pos with
  | zero => exact absurd hfuel (Nat.not_lt_zero _)
  | succ fuel ih =>
    rw [digitsAt, peek_of_at h, ok_bind]
    rcases cs with _ | ⟨c, cs⟩
    · exact ⟨pos, rfl, h⟩
    · rw [List.head?_cons]
      dsimp only
      by_cases hc : isDigit c = true
      · rw [if_pos hc, advance_of_cons h, ok_bind, List.takeWhile_cons_of_pos hc,
          List.dropWhile_cons_of_pos hc, List.cons_append, List.length_cons,
          Nat.add_comm (List.length _) 1, ← Nat.add_assoc]
        exact ih h.next (Nat.lt_of_succ_lt_succ hfuel) (n + 1)
      · rw [if_neg hc, List.takeWhile_cons_of_neg hc, List.dropWhile_cons_of_neg hc,
          List.nil_append]
        by_cases hpoint : c = '.'
        · subst hpoint
          rw [if_pos ⟨rfl, Bool.false_ne_true⟩, advance_of_cons h, ok_bind, digitsAt_pointed_eq]
          exact advanceWhile_of_at isDigit h.next (Nat.lt_of_succ_lt_succ hfuel) n
        · have hfraction : fractionPart (c :: cs) = ([], c :: cs) := by
            unfold fractionPart
            split
            · next heq =>
              cases heq
              exact absurd rfl hpoint
            · rfl
          rw [if_neg fun hp => hpoint hp.1, hfraction]
          exact ⟨pos, rfl, h⟩

theorem signSkip_of_at (h : At text pos cs) :
    ∃ pos', signSkip text pos = .ok pos' ∧ At text pos' (takeSign cs).2 := by
  unfold signSkip
  rw [peek_of_at h, ok_bind]
  rcases cs with _ | ⟨c, cs⟩
  · exact ⟨pos, rfl, h⟩
  · rw [List.head?_cons]
    dsimp only
    by_cases hc : c = '+' ∨ c = '-'
    · have htake : (takeSign (c :: cs)).2 = cs := by rcases hc with rfl | rfl <;> rfl
      rw [if_pos hc, advance_of_cons h, htake]
      exact ⟨_, rfl, h.next⟩
    · have htake : (takeSign (c :: cs)).2 = c :: cs := by
        obtain ⟨hplus, hminus⟩ := not_or.mp hc
        unfold takeSign
        split
        · next heq =>
          cases heq
          exact absurd rfl hminus
        · next heq =>
          cases heq
          exact absurd rfl hplus
        · rfl
      rw [if_neg hc, htake]
      exact ⟨_, rfl, h⟩

/-- An exponent without digits takes nothing: the cursor goes back to its `e`. -/
theorem exponentSkip_of_at (h : At text pos cs) :
    ∃ pos', exponentSkip text pos = .ok pos' ∧ At text pos' (exponentPart cs).2 := by
  unfold exponentSkip exponentPart
  rw [peek_of_at h, ok_bind]
  rcases cs with _ | ⟨c, cs⟩
  · exact ⟨pos, rfl, h⟩
  · rw [List.head?_cons]
    dsimp only
    by_cases hc : c = 'e' ∨ c = 'E'
    · obtain ⟨after, hsign, hafter⟩ := signSkip_of_at h.next
      obtain ⟨pos', hdigits, h'⟩ :=
        advanceWhile_of_at isDigit hafter (Nat.lt_succ_of_le hafter.length_le) 0
      rw [if_pos hc, if_pos hc, advance_of_cons h, ok_bind, hsign, ok_bind, hdigits, ok_bind,
        Nat.zero_add]
      dsimp only
      by_cases hne : (takeSign cs).2.takeWhile isDigit = []
      · rw [if_pos (by rw [hne]; rfl), if_pos (by rw [hne]; rfl), seat_of_at h]
        exact ⟨_, rfl, h⟩
      · rw [if_neg (by simpa using hne), if_neg (by simpa using hne)]
        exact ⟨_, rfl, h'⟩
    · rw [if_neg hc, if_neg hc]
      exact ⟨_, rfl, h⟩

/-- **The number that starts at the cursor** is cut out between there and where the cursor then
stands. -/
theorem numberAt_of_at (h : At text pos cs) (hn : startsNumber cs = true) :
    Comes text (numberAt text pos) (number cs).1 (number cs).2 := by
  obtain ⟨mid, hdigits, hmid⟩ := digitsAt_of_at h (Nat.lt_succ_of_le h.length_le) 0
  obtain ⟨pos', hexponent, h'⟩ := exponentSkip_of_at hmid
  obtain ⟨m, e, hcs, -, -, hvalue⟩ := number_spec hn
  have hrest : At text pos' (number cs).2 := h'
  have hend : pos' = pos + utf8Length (m ++ e) := by
    have hmove : At text (pos + utf8Length (m ++ e)) (number cs).2 := At.move (hcs ▸ h)
    rw [hrest.eq_sub, hmove.eq_sub]
  have hword : upTo cs (pos' - pos) = .ok (m ++ e) := by
    rw [hend, Nat.add_sub_cancel_left]
    nth_rewrite 1 [hcs]
    exact upTo_append _ _
  have hne :
      ¬ 0 + (cs.takeWhile isDigit ++ (fractionPart (cs.dropWhile isDigit)).1).length = 0 := by
    rw [Nat.zero_add, List.length_eq_zero_iff]
    exact parts_ne_nil hn
  unfold numberAt
  rw [hdigits, ok_bind]
  dsimp only
  rw [if_neg hne, hexponent, ok_bind, onFrom_of_at h, ok_bind,
    minus_of_le (hend ▸ Nat.le_add_right _ _), ok_bind, hword, ok_bind, hvalue]
  exact ⟨pos', rfl, hrest⟩

end

/-! ## Where quoted texts end -/

section

variable {text cs value : List Char} {c d quote : Char} {pos start fuel : ℕ}

theorem quotedAt_of_nil (h : At text pos []) :
    quotedAt text quote start (fuel + 1) value pos = failAt start .unterminatedText := by
  rw [quotedAt, advance_of_nil h]
  rfl

theorem quotedAt_of_cons (h : At text pos (c :: cs)) :
    quotedAt text quote start (fuel + 1) value pos =
      if c = quote then .ok (value, pos + c.utf8Size)
      else if c = '\\' then
        advance text (pos + c.utf8Size) >>= fun second =>
          quotedAt text quote start fuel (value ++ second.1.toList) second.2
      else quotedAt text quote start fuel (value ++ [c]) (pos + c.utf8Size) := by
  rw [quotedAt, advance_of_cons h]
  rfl

theorem quotedAt_of_quote (h : At text pos (quote :: cs)) :
    quotedAt text quote start (fuel + 1) value pos = .ok (value, pos + quote.utf8Size) := by
  rw [quotedAt_of_cons h, if_pos rfl]

theorem quotedAt_of_plain (hc : c ≠ quote) (hb : c ≠ '\\') (h : At text pos (c :: cs)) :
    quotedAt text quote start (fuel + 1) value pos =
      quotedAt text quote start fuel (value ++ [c]) (pos + c.utf8Size) := by
  rw [quotedAt_of_cons h, if_neg hc, if_neg hb]

theorem quotedAt_of_escape (hq : '\\' ≠ quote) (h : At text pos ('\\' :: d :: cs)) :
    quotedAt text quote start (fuel + 1) value pos =
      quotedAt text quote start fuel (value ++ [d]) (pos + '\\'.utf8Size + d.utf8Size) := by
  rw [quotedAt_of_cons h, if_neg hq, if_pos rfl, advance_of_cons h.next]
  rfl

/-- A backslash with nothing after it is dropped, and then the text ends. -/
theorem quotedAt_of_last (hc : c ≠ quote) (h : At text pos [c]) :
    quotedAt text quote start (fuel + 2) value pos = failAt start .unterminatedText := by
  rw [quotedAt_of_cons h, if_neg hc]
  split
  · rw [advance_of_nil h.next]
    exact quotedAt_of_nil h.next
  · exact quotedAt_of_nil h.next

/-- After what was read of a quoted text so far, its body is found and the cursor comes to the
characters after the closing quote, or the text is told to be unterminated where it starts. -/
def Unquotes (text : List Char) (start : ℕ) (value : List Char) :
    Option (List Char × List Char) → Reading (List Char × ℕ) → Prop
  | some (body, rest), g => Comes text g (value ++ body) rest
  | none, g => g = failAt start .unterminatedText

theorem unquotes_nil {rest : List Char} (h : At text pos rest) :
    Unquotes text start value (some ([], rest)) (.ok (value, pos)) := by
  refine ⟨pos, ?_, h⟩
  rw [List.append_nil]

theorem Unquotes.cons {o : Option (List Char × List Char)} {g : Reading (List Char × ℕ)}
    (h : Unquotes text start (value ++ [c]) o g) :
    Unquotes text start value (o.map fun p => (c :: p.1, p.2)) g := by
  rcases o with _ | ⟨body, rest⟩
  · exact h
  · obtain ⟨pos', hrun, h'⟩ := h
    rw [List.append_assoc] at hrun
    exact ⟨pos', hrun, h'⟩

/-- **A quoted text ends where its body does.** -/
theorem quotedAt_of_at (h : At text pos cs) (hfuel : cs.length < fuel) :
    Unquotes text start value (quotedBody quote cs)
      (quotedAt text quote start fuel value pos) := by
  obtain ⟨fuel, rfl⟩ : ∃ n, fuel = n + 1 := ⟨fuel - 1, by omega⟩
  fun_induction quotedBody quote cs generalizing value pos fuel with
  | case1 => exact quotedAt_of_nil h
  | case2 =>
    rw [quotedAt_of_quote h]
    exact unquotes_nil h.next
  | case3 c hc =>
    rw [List.length_singleton] at hfuel
    obtain ⟨fuel, rfl⟩ : ∃ n, fuel = n + 1 := ⟨fuel - 1, by omega⟩
    exact quotedAt_of_last hc h
  | case4 d cs =>
    rw [quotedAt_of_quote h]
    exact unquotes_nil h.next
  | case5 d cs hq ih =>
    rw [List.length_cons, List.length_cons] at hfuel
    obtain ⟨fuel, rfl⟩ : ∃ n, fuel = n + 1 := ⟨fuel - 1, by omega⟩
    rw [quotedAt_of_escape hq h]
    exact (ih h.next.next fuel (by omega)).cons
  | case6 c d cs hc hb ih =>
    rw [List.length_cons] at hfuel
    obtain ⟨fuel, rfl⟩ : ∃ n, fuel = n + 1 := ⟨fuel - 1, by omega⟩
    rw [quotedAt_of_plain hc hb h]
    exact (ih h.next fuel (by omega)).cons

theorem unquotes_of_quote (h : At text pos (quote :: cs)) :
    Unquotes text pos [] (quotedBody quote cs)
      (quotedAt text quote pos (text.length + 1) [] (pos + quote.utf8Size)) :=
  quotedAt_of_at h.next (Nat.lt_succ_of_le h.next.length_le)

theorem stringAt_of_some {body rest : List Char} (h : At text pos (quote :: cs))
    (hbody : quotedBody quote cs = some (body, rest)) :
    Comes text (stringAt text quote pos) (String.ofList body) rest := by
  have hquoted := unquotes_of_quote h
  rw [hbody] at hquoted
  obtain ⟨pos', hrun, h'⟩ := hquoted
  unfold stringAt
  rw [advance_of_cons h, ok_bind, hrun]
  exact ⟨pos', rfl, h'⟩

theorem stringAt_of_none (h : At text pos (quote :: cs)) (hbody : quotedBody quote cs = none) :
    stringAt text quote pos = failAt pos .unterminatedText := by
  have hquoted := unquotes_of_quote h
  rw [hbody] at hquoted
  unfold stringAt
  rw [advance_of_cons h, ok_bind, hquoted]
  rfl

end

/-! ## Which operator stands at the cursor -/

/-- The first of some words that a text starts with, and what follows it. -/
def firstWord? {β : Type} : List (List Char × β) → List Char → Option (β × List Char)
  | [], _ => none
  | (w, b) :: words, cs =>
    if w.isPrefixOf cs then some (b, cs.drop w.length) else firstWord? words cs

theorem firstWord?_cons {β : Type} (w : List Char) (b : β) (words : List (List Char × β))
    (cs : List Char) : firstWord? ((w, b) :: words) cs =
      if w.isPrefixOf cs then some (b, cs.drop w.length) else firstWord? words cs :=
  rfl

/-- What is found at the front of a text is found at the cursor, which moves beyond it. -/
def Meets (text : List Char) (pos : ℕ) {β : Type} :
    Option (β × List Char) → Reading (Option β × ℕ) → Prop
  | some (b, rest), g => Comes text g (some b) rest
  | none, g => g = .ok (none, pos)

section

variable {text cs : List Char} {pos : ℕ}

theorem firstAt_of_at {β : Type} (words : List (List Char × β)) (h : At text pos cs) :
    Meets text pos (firstWord? words cs) (firstAt text words pos) := by
  induction words with
  | nil => rfl
  | cons word words ih =>
    obtain ⟨w, b⟩ := word
    rw [firstWord?_cons, firstAt]
    by_cases hw : w <+: cs
    · obtain ⟨rest, rfl⟩ := hw
      rw [if_pos (List.isPrefixOf_iff_prefix.mpr (List.prefix_append w rest)), List.drop_left,
        consume_of_append h]
      exact ⟨_, rfl, h.move⟩
    · rw [if_neg fun hp => hw (List.isPrefixOf_iff_prefix.mp hp), consume_of_not_prefix h hw]
      exact ih

theorem firstWord?_eq_none {β : Type} {words : List (List Char × β)}
    (h : ∀ p ∈ words, ∀ rest, cs ≠ p.1 ++ rest) : firstWord? words cs = none := by
  induction words with
  | nil => rfl
  | cons word words ih =>
    obtain ⟨w, b⟩ := word
    obtain ⟨hword, hwords⟩ := List.forall_mem_cons.mp h
    rw [firstWord?_cons, if_neg, ih hwords]
    intro hp
    obtain ⟨rest, hrest⟩ := List.isPrefixOf_iff_prefix.mp hp
    exact hword rest hrest.symm

/-- A word is not there if its last character is not. -/
theorem isPrefixOf_two_eq_false {c d : Char} (h : ∀ more, cs ≠ d :: more) :
    [c, d].isPrefixOf (c :: cs) = false := by
  rw [Bool.eq_false_iff]
  intro hp
  obtain ⟨rest, hrest⟩ := List.isPrefixOf_iff_prefix.mp hp
  exact h rest (List.cons.inj hrest).2.symm

theorem comparison?_eq (cs : List Char) : comparison? cs = firstWord? comparisonWords cs := by
  unfold comparison?
  split
  case h_5 | h_6 =>
    next cs hne =>
    unfold comparisonWords
    rw [firstWord?_cons, firstWord?_cons]
    simp only [isPrefixOf_two_eq_false fun more => hne more]
    rfl
  case h_7 h1 h2 h3 h4 h5 h6 =>
    refine (firstWord?_eq_none ?_).symm
    unfold comparisonWords
    simp only [List.forall_mem_cons]
    exact ⟨h1, h2, h3, h4, h5, h6, fun _ hp => absurd hp List.not_mem_nil⟩
  all_goals rfl

theorem multiplicative?_eq (cs : List Char) : multiplicative? cs =
    if ['*', '*'].isPrefixOf cs then none else firstWord? productWords cs := by
  unfold multiplicative?
  split
  case h_3 cs hne =>
    rw [isPrefixOf_two_eq_false hne]
    rfl
  case h_4 cs hne =>
    unfold productWords
    rw [firstWord?_cons, isPrefixOf_two_eq_false hne]
    rfl
  case h_6 h1 h2 h3 h4 h5 =>
    rw [firstWord?_eq_none, ite_self]
    unfold productWords
    simp only [List.forall_mem_cons]
    exact ⟨h2, h3, h4, h5, fun _ hp => absurd hp List.not_mem_nil⟩
  all_goals rfl

theorem power?_eq (cs : List Char) :
    (power? cs).map (fun rest => ((), rest)) = firstWord? powerWords cs := by
  unfold power?
  split
  case h_3 h1 h2 =>
    refine (firstWord?_eq_none ?_).symm
    unfold powerWords
    simp only [List.forall_mem_cons]
    exact ⟨h1, h2, fun _ hp => absurd hp List.not_mem_nil⟩
  all_goals rfl

theorem comparisonAt_of_at (h : At text pos cs) :
    Meets text pos (comparison? cs) (comparisonAt text pos) := by
  rw [comparison?_eq]
  exact firstAt_of_at comparisonWords h

theorem powerAt_of_at (h : At text pos cs) :
    Meets text pos ((power? cs).map fun rest => ((), rest)) (powerAt text pos) := by
  rw [power?_eq]
  exact firstAt_of_at powerWords h

theorem productAt_of_at (h : At text pos cs) :
    Meets text pos (multiplicative? cs) (productAt text pos) := by
  rw [multiplicative?_eq]
  unfold productAt
  rw [remaining_of_at h, ok_bind]
  split
  · rfl
  · exact firstAt_of_at productWords h

/-! ### Signs -/

variable {β : Type} {plus minus : β}

theorem plusOrMinusAt_of_plus (h : At text pos ('+' :: cs)) :
    Comes text (plusOrMinusAt text plus minus pos) (some plus) cs := by
  unfold plusOrMinusAt
  rw [peek_of_at h, ok_bind]
  dsimp only [List.head?_cons]
  rw [advance_of_cons h]
  exact ⟨_, rfl, h.next⟩

theorem plusOrMinusAt_of_minus (h : At text pos ('-' :: cs)) :
    Comes text (plusOrMinusAt text plus minus pos) (some minus) cs := by
  unfold plusOrMinusAt
  rw [peek_of_at h, ok_bind]
  dsimp only [List.head?_cons]
  rw [advance_of_cons h]
  exact ⟨_, rfl, h.next⟩

theorem plusOrMinusAt_of_other (h : At text pos cs) (hplus : ∀ more, cs ≠ '+' :: more)
    (hminus : ∀ more, cs ≠ '-' :: more) :
    plusOrMinusAt text plus minus pos = .ok (none, pos) := by
  unfold plusOrMinusAt
  rw [peek_of_at h, ok_bind]
  split
  · next heq =>
    obtain ⟨more, hmore⟩ := List.head?_eq_some_iff.mp heq
    exact absurd hmore (hplus more)
  · next heq =>
    obtain ⟨more, hmore⟩ := List.head?_eq_some_iff.mp heq
    exact absurd hmore (hminus more)
  · rfl

theorem additiveAt_of_at (h : At text pos cs) :
    Meets text pos (additive? cs) (plusOrMinusAt text Operator.add .sub pos) := by
  unfold additive?
  split
  · exact plusOrMinusAt_of_plus h
  · exact plusOrMinusAt_of_minus h
  · next hplus hminus => exact plusOrMinusAt_of_other h hplus hminus

theorem signAt_of_at (h : At text pos cs) :
    Meets text pos (sign? cs) (plusOrMinusAt text Sign.plus .minus pos) := by
  unfold sign?
  split
  · exact plusOrMinusAt_of_minus h
  · exact plusOrMinusAt_of_plus h
  · next hminus hplus => exact plusOrMinusAt_of_other h hplus hminus

end

end TickBacktest.Expression
