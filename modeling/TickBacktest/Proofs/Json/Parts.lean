import Mathlib.Data.List.Basic
import Mathlib.Data.Nat.Notation
import TickBacktest.Json.Writer

/-! # The parts of a value

What holds of a value if it holds of its parts (`Json.induction`), and the writer and the document
of a value as lists of those of its parts. `numbers` are all the numbers in a value. -/

namespace TickBacktest.Json

/-- What a value inherits from its parts holds of all values. -/
@[elab_as_elim]
theorem induction {p : Json → Prop} (null : p .null) (bool : ∀ b, p (.bool b))
    (number : ∀ n, p (.number n)) (text : ∀ s, p (.text s))
    (array : ∀ items, (∀ x ∈ items, p x) → p (.array items))
    (object : ∀ entries, (∀ e ∈ entries, p e.2) → p (.object entries)) (j : Json) : p j := by
  refine @Json.rec p (fun items => ∀ x ∈ items, p x) (fun entries => ∀ e ∈ entries, p e.2)
    (fun e => p e.2) null bool number text array object ?_ ?_ ?_ ?_ ?_ j
  · simp
  · intro x xs hx hxs
    exact List.forall_mem_cons.mpr ⟨hx, hxs⟩
  · simp
  · intro e es he hes
    exact List.forall_mem_cons.mpr ⟨he, hes⟩
  · intro key x hx
    exact hx

theorem itemsToSource_eq (items : List Json) : itemsToSource items = items.map toSource := by
  induction items with
  | nil => rfl
  | cons x xs ih => rw [itemsToSource, ih, List.map_cons]

theorem entriesToSource_eq (entries : List (String × Json)) :
    entriesToSource entries = entries.map fun e => (some e.1, e.2.toSource) := by
  induction entries with
  | nil => rfl
  | cons e es ih => rw [entriesToSource, ih, List.map_cons]

theorem compactItems_eq (items : List Json) : compactItems items = items.map compactChars := by
  induction items with
  | nil => rfl
  | cons x xs ih => rw [compactItems, ih, List.map_cons]

theorem compactEntries_eq (entries : List (String × Json)) : compactEntries entries =
    entries.map fun e => textChars e.1 ++ ':' :: e.2.compactChars := by
  induction entries with
  | nil => rfl
  | cons e es ih => rw [compactEntries, ih, List.map_cons]

mutual

/-- The numbers in a value. -/
def numbers : Json → List Number
  | .number n => [n]
  | .array items => itemsNumbers items
  | .object entries => entriesNumbers entries
  | _ => []

def itemsNumbers : List Json → List Number
  | [] => []
  | x :: xs => x.numbers ++ itemsNumbers xs

def entriesNumbers : List (String × Json) → List Number
  | [] => []
  | (_, x) :: xs => x.numbers ++ entriesNumbers xs

end

theorem numbers_array (items : List Json) : (array items).numbers = items.flatMap numbers := by
  rw [numbers]
  induction items with
  | nil => rfl
  | cons x xs ih => rw [itemsNumbers, ih, List.flatMap_cons]

theorem numbers_object (entries : List (String × Json)) :
    (object entries).numbers = entries.flatMap (·.2.numbers) := by
  rw [numbers]
  induction entries with
  | nil => rfl
  | cons e es ih => rw [entriesNumbers, ih, List.flatMap_cons]

end TickBacktest.Json
