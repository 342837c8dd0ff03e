import TickBacktest.Decimal.Reading
import TickBacktest.Proofs.Outcome

/-! # Guarded calculations

Sizes, places in a list or a text and slices of one, as a machine with sizes of 64 bits has them: a
difference must not be negative, and a place must be one. A calculation that is *guarded* stops with
an overrun where this fails, and otherwise with a fault of its own or with a value. One that never
overruns is the lift of a calculation without guards. -/

namespace TickBacktest

/-- What a guard stops. -/
inductive Overrun where
  /-- A place outside of its list. -/
  | place
  /-- A slice that starts after the end of its list. -/
  | slice
  /-- A difference of sizes below zero. -/
  | negative
  /-- A byte of a text inside of a character, or beyond the end of the text. -/
  | boundary
  /-- A loop that goes on for longer than its text. -/
  | endless
  deriving DecidableEq, Repr

/-- Why a guarded calculation has no value: a guard stops it, or it has a fault of its own. -/
inductive Halt (ε : Type) where
  | overrun (o : Overrun)
  | fault (e : ε)

/-- A guarded calculation. -/
abbrev Guarded (ε α : Type) := Except (Halt ε) α

/-- A calculation that needs no guard. -/
def lift {ε α : Type} (x : Except ε α) : Guarded ε α := x.mapError .fault

section

variable {ε α β : Type}

theorem lift_ok (a : α) : lift (Except.ok a : Except ε α) = .ok a :=
  rfl

theorem lift_bind (x : Except ε α) (f : α → Except ε β) :
    lift (x >>= f) = lift x >>= fun a => lift (f a) := by
  rcases x with e | a <;> rfl

/-- What needs no guard does not overrun. -/
theorem lift_ne_overrun (x : Except ε α) (o : Overrun) : lift x ≠ .error (.overrun o) := by
  rcases x with e | a
  · intro h
    cases h
  · intro h
    cases h

/-! ## Sizes -/

/-- The difference of two sizes. -/
def minus (a b : ℕ) : Guarded ε ℕ := if b ≤ a then .ok (a - b) else .error (.overrun .negative)

/-- The sum of two sizes, if it is one. -/
def sum? (a b : ℕ) : Option ℕ := if a + b ≤ Decimal.maxSize then some (a + b) else none

theorem minus_of_le {a b : ℕ} (h : b ≤ a) : (minus a b : Guarded ε ℕ) = .ok (a - b) :=
  if_pos h

theorem eq_of_minus {a b c : ℕ} (h : (minus a b : Guarded ε ℕ) = .ok c) : a - b = c := by
  unfold minus at h
  split at h
  · cases h
    rfl
  · cases h

theorem overrun_of_minus {a b : ℕ} {h : Halt ε} (he : (minus a b : Guarded ε ℕ) = .error h) :
    ∃ o, h = .overrun o := by
  unfold minus at he
  split at he
  · cases he
  · cases he
    exact ⟨_, rfl⟩

/-! ## Places -/

/-- The element at a place. -/
def entry (xs : List α) (i : ℕ) : Guarded ε α :=
  match xs[i]? with
  | some x => .ok x
  | none => .error (.overrun .place)

/-- The list with another element at a place. -/
def store (xs : List α) (i : ℕ) (x : α) : Guarded ε (List α) :=
  if i < xs.length then .ok (xs.set i x) else .error (.overrun .place)

/-- The elements from a place on. -/
def sliceFrom (xs : List α) (i : ℕ) : Guarded ε (List α) :=
  if i ≤ xs.length then .ok (xs.drop i) else .error (.overrun .slice)

section

variable {xs : List α} {i : ℕ} {x : α}

theorem entry_of_some (h : xs[i]? = some x) : (entry xs i : Guarded ε α) = .ok x := by
  unfold entry
  rw [h]

theorem entry_ok_iff : (entry xs i : Guarded ε α) = .ok x ↔ xs[i]? = some x := by
  refine ⟨fun h => ?_, entry_of_some⟩
  unfold entry at h
  rcases hx : xs[i]? with _ | y
  · rw [hx] at h
    cases h
  · rw [hx] at h
    cases h
    rfl

theorem overrun_of_entry {h : Halt ε} (he : (entry xs i : Guarded ε α) = .error h) :
    ∃ o, h = .overrun o := by
  unfold entry at he
  split at he
  · cases he
  · cases he
    exact ⟨_, rfl⟩

theorem store_of_lt (h : i < xs.length) : (store xs i x : Guarded ε (List α)) = .ok (xs.set i x) :=
  if_pos h

theorem sliceFrom_of_le (h : i ≤ xs.length) :
    (sliceFrom xs i : Guarded ε (List α)) = .ok (xs.drop i) :=
  if_pos h

end

end

end TickBacktest
