import Mathlib.Algebra.Ring.Nat
import TickBacktest.Expression.Parser
import TickBacktest.Proofs.Guarded

/-! # A cursor in a text

A text of bytes is read at a cursor, which is a number of bytes. It must stand on the boundary of a
character whenever it is moved or something is read or cut off there (`remaining`, `seat`, `upTo`,
`onFrom`): at the length of a prefix of whole characters (`charsFrom_eq_some_iff`). Where it does
(`At`), moving it on by what stands there keeps it so. -/

namespace TickBacktest.Expression

open Text

/-! ## Bytes -/

theorem utf8Length_eq (cs : List Char) : utf8Length cs = (cs.map Char.utf8Size).sum := by
  have hfoldl : ∀ n, cs.foldl (fun n c => n + c.utf8Size) n = n + (cs.map Char.utf8Size).sum := by
    induction cs with
    | nil => exact fun _ => rfl
    | cons c cs ih =>
      intro n
      rw [List.foldl_cons, ih, List.map_cons, List.sum_cons, Nat.add_assoc]
  unfold utf8Length
  rw [hfoldl, Nat.zero_add]

theorem utf8Length_nil : utf8Length [] = 0 := rfl

theorem utf8Length_cons (c : Char) (cs : List Char) :
    utf8Length (c :: cs) = c.utf8Size + utf8Length cs := by
  rw [utf8Length_eq, utf8Length_eq, List.map_cons, List.sum_cons]

theorem utf8Length_append (cs ds : List Char) :
    utf8Length (cs ++ ds) = utf8Length cs + utf8Length ds := by
  rw [utf8Length_eq, utf8Length_eq, utf8Length_eq, List.map_append, List.sum_append]

/-- The characters from a byte on, if a character starts there or the text ends. -/
def charsFrom : List Char → ℕ → Option (List Char)
  | cs, 0 => some cs
  | [], _ + 1 => none
  | c :: cs, n + 1 => if c.utf8Size ≤ n + 1 then charsFrom cs (n + 1 - c.utf8Size) else none

/-- The characters up to a byte, if one ends there or the text starts. -/
def charsUpTo : List Char → ℕ → Option (List Char)
  | _, 0 => some []
  | [], _ + 1 => none
  | c :: cs, n + 1 =>
    if c.utf8Size ≤ n + 1 then (charsUpTo cs (n + 1 - c.utf8Size)).map (c :: ·) else none

/-- A byte of a text, and the characters from there on. -/
def At (text : List Char) (pos : ℕ) (cs : List Char) : Prop :=
  ∃ pre, text = pre ++ cs ∧ pos = utf8Length pre

section

variable {text cs ds : List Char} {pos : ℕ}

/-- The length of a text in bytes, and what is left of it after the first character. -/
theorem exists_utf8Length_cons (c : Char) (cs : List Char) : ∃ n, utf8Length (c :: cs) = n + 1 ∧
    c.utf8Size ≤ n + 1 ∧ n + 1 - c.utf8Size = utf8Length cs := by
  have hpos := c.utf8Size_pos
  refine ⟨c.utf8Size + utf8Length cs - 1, ?_, ?_, ?_⟩
  · rw [utf8Length_cons]
    omega
  · omega
  · omega

theorem charsFrom_append (pre cs : List Char) :
    charsFrom (pre ++ cs) (utf8Length pre) = some cs := by
  induction pre with
  | nil => cases cs <;> rfl
  | cons c pre ih =>
    obtain ⟨n, hn, hle, hrest⟩ := exists_utf8Length_cons c pre
    rw [hn, List.cons_append, charsFrom, if_pos hle, hrest, ih]

theorem charsUpTo_append (cs ds : List Char) :
    charsUpTo (cs ++ ds) (utf8Length cs) = some cs := by
  induction cs with
  | nil => cases ds <;> rfl
  | cons c cs ih =>
    obtain ⟨n, hn, hle, hrest⟩ := exists_utf8Length_cons c cs
    rw [hn, List.cons_append, charsUpTo, if_pos hle, hrest, ih]
    rfl

theorem at_of_charsFrom (h : charsFrom text pos = some cs) : At text pos cs := by
  fun_induction charsFrom text pos with
  | case1 =>
    cases h
    exact ⟨[], rfl, rfl⟩
  | case2 => cases h
  | case3 c text n hle ih =>
    obtain ⟨pre, rfl, hlen⟩ := ih h
    refine ⟨c :: pre, rfl, ?_⟩
    rw [utf8Length_cons]
    omega
  | case4 => cases h

/-- **Boundaries are the lengths of the prefixes of whole characters.** -/
theorem charsFrom_eq_some_iff : charsFrom text pos = some cs ↔ At text pos cs := by
  refine ⟨at_of_charsFrom, ?_⟩
  rintro ⟨pre, rfl, rfl⟩
  exact charsFrom_append pre cs

example : charsFrom ['é', '+'] 2 = some ['+'] ∧ charsFrom ['é', '+'] 1 = none := by decide

theorem at_zero (text : List Char) : At text 0 text := ⟨[], rfl, rfl⟩

/-- The cursor moves on by what stands there. -/
theorem At.move (h : At text pos (ds ++ cs)) : At text (pos + utf8Length ds) cs := by
  obtain ⟨pre, rfl, rfl⟩ := h
  exact ⟨pre ++ ds, (List.append_assoc pre ds cs).symm, (utf8Length_append pre ds).symm⟩

theorem At.next {c : Char} (h : At text pos (c :: cs)) : At text (pos + c.utf8Size) cs := by
  have hmove : At text (pos + utf8Length [c]) cs := At.move h
  rwa [utf8Length_cons, utf8Length_nil, Nat.add_zero] at hmove

/-- No more is left than the whole text. -/
theorem At.length_le (h : At text pos cs) : cs.length ≤ text.length := by
  obtain ⟨pre, rfl, -⟩ := h
  rw [List.length_append]
  exact Nat.le_add_left _ _

theorem At.eq_sub (h : At text pos cs) : pos = utf8Length text - utf8Length cs := by
  obtain ⟨pre, rfl, rfl⟩ := h
  rw [utf8Length_append, Nat.add_sub_cancel]

end

/-! ## Reading at the cursor -/

/-- Why a text is not an expression, as it is found at the cursor. A number is cut out of the text
before it is read, which may find no digits or no number in it. -/
inductive CursorFault where
  | expression (fault : SyntaxFault)
  | noDigits
  | noNumber (word : List Char)

/-- A fault and the byte where the cursor then stands. -/
structure CursorError where
  fault : CursorFault
  position : ℕ

/-- What is read at the cursor. A part of the text that is read comes with the byte where the cursor
stands after it. -/
abbrev Reading (α : Type) := Guarded CursorError α

/-- A fault that is found at the cursor. -/
def failAt {α : Type} (pos : ℕ) (fault : SyntaxFault) : Reading α :=
  .error (.fault ⟨.expression fault, pos⟩)

/-- The characters of a text from a byte on. -/
def onFrom (cs : List Char) (n : ℕ) : Reading (List Char) :=
  match charsFrom cs n with
  | some ds => .ok ds
  | none => .error (.overrun .boundary)

/-- The characters of a text up to a byte. -/
def upTo (cs : List Char) (n : ℕ) : Reading (List Char) :=
  match charsUpTo cs n with
  | some ds => .ok ds
  | none => .error (.overrun .boundary)

section

variable (text : List Char)

/-- The text from the cursor on. -/
def remaining (pos : ℕ) : Reading (List Char) := onFrom text pos

/-- The cursor, moved to a byte. -/
def seat (pos : ℕ) : Reading ℕ := do
  let _ ← remaining text pos
  return pos

/-- The character at the cursor. -/
def peek (pos : ℕ) : Reading (Option Char) := do
  return (← remaining text pos).head?

/-- The character at the cursor, which moves beyond it. -/
def advance (pos : ℕ) : Reading (Option Char × ℕ) := do
  match ← peek text pos with
  | none => return (none, pos)
  | some c => return (some c, ← seat text (pos + c.utf8Size))

/-- Whether a word stands at the cursor, which then moves beyond it. -/
def consume (w : List Char) (pos : ℕ) : Reading (Bool × ℕ) := do
  if w.isPrefixOf (← remaining text pos) then return (true, ← seat text (pos + utf8Length w))
  else return (false, pos)

/-- The number of characters that the cursor moves over, all of one kind, after those counted so
far. -/
def advanceWhile (p : Char → Bool) : ℕ → ℕ → ℕ → Reading (ℕ × ℕ)
  | 0, _, _ => .error (.overrun .endless)
  | fuel + 1, count, pos => do
    match ← peek text pos with
    | some c =>
      if p c then advanceWhile p fuel (count + 1) (← advance text pos).2 else return (count, pos)
    | none => return (count, pos)

/-- The cursor moves over blanks. -/
def skip (pos : ℕ) : Reading ℕ := do
  return (← advanceWhile text isBlank (text.length + 1) 0 pos).2

/-- A certain character must stand at the cursor, after blanks. -/
def expectAt (c : Char) (pos : ℕ) : Reading ℕ := do
  let pos ← skip text pos
  match ← peek text pos with
  | none => failAt pos (.expected c none)
  | some d => if d = c then return (← advance text pos).2 else failAt pos (.expected c (some d))

end

/-! ## Where the cursor comes to -/

/-- A step finds `a` and comes to the characters `cs`. -/
def Comes (text : List Char) {α : Type} (g : Reading (α × ℕ)) (a : α) (cs : List Char) : Prop :=
  ∃ pos, g = .ok (a, pos) ∧ At text pos cs

section

variable {text cs ds : List Char} {c : Char} {pos : ℕ}

theorem onFrom_of_at (h : At text pos cs) : onFrom text pos = .ok cs := by
  unfold onFrom
  rw [charsFrom_eq_some_iff.mpr h]

theorem upTo_append (cs ds : List Char) : upTo (cs ++ ds) (utf8Length cs) = .ok cs := by
  unfold upTo
  rw [charsUpTo_append]

theorem remaining_of_at (h : At text pos cs) : remaining text pos = .ok cs := onFrom_of_at h

theorem seat_of_at (h : At text pos cs) : seat text pos = .ok pos := by
  unfold seat
  rw [remaining_of_at h]
  rfl

theorem peek_of_at (h : At text pos cs) : peek text pos = .ok cs.head? := by
  unfold peek
  rw [remaining_of_at h]
  rfl

theorem advance_of_cons (h : At text pos (c :: cs)) :
    advance text pos = .ok (some c, pos + c.utf8Size) := by
  unfold advance
  rw [peek_of_at h, ok_bind]
  dsimp only [List.head?_cons]
  rw [seat_of_at h.next]
  rfl

theorem advance_of_nil (h : At text pos []) : advance text pos = .ok (none, pos) := by
  unfold advance
  rw [peek_of_at h]
  rfl

/-- A word that stands at the cursor is taken, and another one is not. -/
theorem consume_of_append {w : List Char} (h : At text pos (w ++ cs)) :
    consume text w pos = .ok (true, pos + utf8Length w) := by
  unfold consume
  rw [remaining_of_at h, ok_bind, if_pos (List.isPrefixOf_iff_prefix.mpr (List.prefix_append w cs)),
    seat_of_at h.move]
  rfl

theorem consume_of_not_prefix {w : List Char} (h : At text pos cs) (hw : ¬ w <+: cs) :
    consume text w pos = .ok (false, pos) := by
  unfold consume
  rw [remaining_of_at h, ok_bind, if_neg fun hp => hw (List.isPrefixOf_iff_prefix.mp hp)]
  rfl

/-- The cursor moves over all characters of a kind, and counts them. -/
theorem advanceWhile_of_at (p : Char → Bool) (h : At text pos cs) {fuel : ℕ}
    (hfuel : cs.length < fuel) (count : ℕ) :
    Comes text (advanceWhile text p fuel count pos) (count + (cs.takeWhile p).length)
      (cs.dropWhile p) := by
  induction fuel generalizing cs count pos with
  | zero => exact absurd hfuel (Nat.not_lt_zero _)
  | succ fuel ih =>
    rw [advanceWhile, peek_of_at h, ok_bind]
    rcases cs with _ | ⟨c, cs⟩
    · exact ⟨pos, rfl, h⟩
    · rw [List.head?_cons]
      dsimp only
      by_cases hc : p c = true
      · have hcount : count + ((cs.takeWhile p).length + 1) =
            count + 1 + (cs.takeWhile p).length := by omega
        rw [if_pos hc, advance_of_cons h, ok_bind, List.takeWhile_cons_of_pos hc,
          List.dropWhile_cons_of_pos hc, List.length_cons, hcount]
        exact ih h.next (Nat.lt_of_succ_lt_succ hfuel) (count + 1)
      · rw [if_neg hc, List.takeWhile_cons_of_neg hc, List.dropWhile_cons_of_neg hc]
        exact ⟨pos, rfl, h⟩

theorem skip_of_at (h : At text pos cs) :
    ∃ pos', skip text pos = .ok pos' ∧ At text pos' (trimLeft cs) := by
  obtain ⟨pos', hrun, hat⟩ :=
    advanceWhile_of_at isBlank h (Nat.lt_succ_of_le h.length_le) 0
  unfold skip
  rw [hrun]
  exact ⟨pos', rfl, hat⟩

theorem expectAt_of_cons (h : At text pos cs) (hc : trimLeft cs = c :: ds) :
    ∃ pos', expectAt text c pos = .ok pos' ∧ At text pos' ds := by
  obtain ⟨mid, hskip, hmid⟩ := skip_of_at h
  rw [hc] at hmid
  unfold expectAt
  rw [hskip, ok_bind, peek_of_at hmid, ok_bind]
  dsimp only [List.head?_cons]
  rw [if_pos rfl, advance_of_cons hmid]
  exact ⟨_, rfl, hmid.next⟩

end

end TickBacktest.Expression
