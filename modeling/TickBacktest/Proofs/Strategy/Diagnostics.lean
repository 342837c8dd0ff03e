import Mathlib.Data.List.Basic
import TickBacktest.Strategy.Engine

/-! # Failures counted

Diagnostics are a map from ids to failure records, kept as a list in the order of the ids. Counting
a failure keeps the order (`ordered_record`), it adds to the record of its own id
(`get?_record_self`) and leaves the others alone (`get?_record_ne`). So the counts only grow: what
has been recorded of an id is continued by every later state (`ContinuedBy`). -/

namespace TickBacktest.Strategy

namespace Diagnostics

/-- The ids are in strict order. -/
def Ordered (ds : Diagnostics) : Prop := ds.Pairwise fun a b => a.1 < b.1

theorem ordered_nil : Ordered [] := List.Pairwise.nil

/-- An id below the first one is below all. -/
theorem Ordered.lt_of_lt {ds : Diagnostics} {d : String × FailureRecord} {id : String}
    (h : Ordered (d :: ds)) (hlt : id < d.1) : ∀ e ∈ d :: ds, id < e.1 := by
  obtain ⟨hfirst, -⟩ := List.pairwise_cons.mp h
  exact List.forall_mem_cons.mpr ⟨hlt, fun e he => String.lt_trans hlt (hfirst e he)⟩

/-- The record of an id after one more failure. -/
def next (message : String) : Option FailureRecord → FailureRecord
  | none => ⟨message, 1⟩
  | some r => { r with failures := r.failures + 1 }

theorem get?_cons_self (k : String) (r : FailureRecord) (ds : Diagnostics) :
    get? ((k, r) :: ds) k = some r := by
  unfold get?
  rw [List.find?_cons_of_pos (by simp)]
  rfl

theorem get?_cons_ne {k id : String} (h : k ≠ id) (r : FailureRecord) (ds : Diagnostics) :
    get? ((k, r) :: ds) id = get? ds id := by
  unfold get?
  rw [List.find?_cons_of_neg (by simpa using h)]

theorem get?_of_lt {ds : Diagnostics} {id : String} (h : ∀ e ∈ ds, id < e.1) :
    ds.get? id = none := by
  induction ds with
  | nil => rfl
  | cons e ds ih =>
    have hne : e.1 ≠ id := fun he => String.lt_irrefl id (he ▸ h e List.mem_cons_self)
    rw [show e :: ds = (e.1, e.2) :: ds from rfl, get?_cons_ne hne]
    exact ih fun d hd => h d (List.mem_cons_of_mem _ hd)

theorem lt_of_not_lt_of_ne {k id : String} (hne : k ≠ id) (h : ¬ id < k) : k < id := by
  by_contra hk
  exact hne (String.le_antisymm (String.not_lt.mp h) (String.not_lt.mp hk))

theorem mem_record {id message : String} {e : String × FailureRecord} {ds : Diagnostics}
    (he : e ∈ ds.record id message) : e.1 = id ∨ ∃ d ∈ ds, d.1 = e.1 := by
  induction ds with
  | nil =>
    rw [record, List.mem_singleton] at he
    left
    rw [he]
  | cons d ds ih =>
    obtain ⟨k, r⟩ := d
    rw [record] at he
    split_ifs at he with hk hlt
    · rcases List.mem_cons.mp he with rfl | he
      · exact Or.inl hk
      · exact Or.inr ⟨e, List.mem_cons_of_mem _ he, rfl⟩
    · rcases List.mem_cons.mp he with rfl | he
      · exact Or.inl rfl
      · exact Or.inr ⟨e, he, rfl⟩
    · rcases List.mem_cons.mp he with rfl | he
      · exact Or.inr ⟨(k, r), List.mem_cons_self, rfl⟩
      · rcases ih he with h | ⟨d, hd, h⟩
        · exact Or.inl h
        · exact Or.inr ⟨d, List.mem_cons_of_mem _ hd, h⟩

/-- **Counting keeps the order of the ids.** -/
theorem ordered_record {ds : Diagnostics} (h : ds.Ordered) (id message : String) :
    (ds.record id message).Ordered := by
  induction ds with
  | nil => exact List.pairwise_singleton _ _
  | cons d ds ih =>
    obtain ⟨k, r⟩ := d
    obtain ⟨hfirst, hrest⟩ := List.pairwise_cons.mp h
    rw [record]
    split_ifs with hk hlt
    · exact List.pairwise_cons.mpr ⟨hfirst, hrest⟩
    · exact List.pairwise_cons.mpr ⟨h.lt_of_lt hlt, h⟩
    · refine List.pairwise_cons.mpr ⟨fun e he => ?_, ih hrest⟩
      rcases mem_record he with he | ⟨d, hd, he⟩
      · rw [he]
        exact lt_of_not_lt_of_ne hk hlt
      · rw [← he]
        exact hfirst d hd

/-- **A failure is counted under its id.** -/
theorem get?_record_self {ds : Diagnostics} (h : ds.Ordered) (id message : String) :
    (ds.record id message).get? id = some (next message (ds.get? id)) := by
  induction ds with
  | nil => exact get?_cons_self id _ []
  | cons d ds ih =>
    obtain ⟨k, r⟩ := d
    rw [record]
    split_ifs with hk hlt
    · rw [hk, get?_cons_self, get?_cons_self]
      rfl
    · have hnone : get? ((k, r) :: ds) id = none := get?_of_lt (h.lt_of_lt hlt)
      rw [get?_cons_self, hnone]
      rfl
    · rw [get?_cons_ne hk, get?_cons_ne hk, ih h.of_cons]

/-- **A failure is counted under no other id.** -/
theorem get?_record_ne {id id' : String} (hne : id ≠ id') (message : String) (ds : Diagnostics) :
    (ds.record id message).get? id' = ds.get? id' := by
  induction ds with
  | nil => exact get?_cons_ne hne _ []
  | cons d ds ih =>
    obtain ⟨k, r⟩ := d
    rw [record]
    split_ifs with hk hlt
    · rw [get?_cons_ne (hk ▸ hne), get?_cons_ne (hk ▸ hne)]
    · rw [get?_cons_ne hne]
    · by_cases hk' : k = id'
      · rw [hk', get?_cons_self, get?_cons_self]
      · rw [get?_cons_ne hk', get?_cons_ne hk', ih]

/-! ## Growth -/

/-- Every failure counted in `ds` is still counted in `ds'`, under the same first message. -/
def ContinuedBy (ds ds' : Diagnostics) : Prop :=
  ∀ id r, ds.get? id = some r →
    ∃ r', ds'.get? id = some r' ∧ r'.firstError = r.firstError ∧ r.failures ≤ r'.failures

theorem ContinuedBy.refl (ds : Diagnostics) : ContinuedBy ds ds := fun _ r h =>
  ⟨r, h, rfl, Nat.le_refl _⟩

theorem ContinuedBy.trans {ds ds' ds'' : Diagnostics} (h : ds.ContinuedBy ds')
    (h' : ds'.ContinuedBy ds'') : ds.ContinuedBy ds'' := by
  intro id r hr
  obtain ⟨r', hr', hfirst, hle⟩ := h id r hr
  obtain ⟨r'', hr'', hfirst', hle'⟩ := h' id r' hr'
  exact ⟨r'', hr'', hfirst'.trans hfirst, by omega⟩

theorem continuedBy_record {ds : Diagnostics} (h : ds.Ordered) (id message : String) :
    ds.ContinuedBy (ds.record id message) := by
  intro id' r hr
  by_cases hid : id = id'
  · subst hid
    refine ⟨_, get?_record_self h id message, ?_⟩
    rw [hr]
    exact ⟨rfl, Nat.le_succ _⟩
  · exact ⟨r, by rw [get?_record_ne hid, hr], rfl, Nat.le_refl _⟩

end Diagnostics

/-! ## Through the engine -/

namespace Engine

open Diagnostics (Ordered ContinuedBy)

theorem count_spec {ds : Diagnostics} (h : ds.Ordered)
    (o : String × Except Fault (Option Float)) :
    (count ds o).Ordered ∧ ds.ContinuedBy (count ds o) := by
  obtain ⟨id, v | f⟩ := o
  · exact ⟨Diagnostics.ordered_record h id _, Diagnostics.continuedBy_record h id _⟩
  · exact ⟨h, ContinuedBy.refl ds⟩

theorem foldl_count_spec (os : List (String × Except Fault (Option Float))) :
    ∀ ds : Diagnostics, ds.Ordered →
      (os.foldl count ds).Ordered ∧ ds.ContinuedBy (os.foldl count ds) := by
  induction os with
  | nil => intro ds h; exact ⟨h, ContinuedBy.refl ds⟩
  | cons o os ih =>
    intro ds h
    obtain ⟨h1, hc1⟩ := count_spec h o
    obtain ⟨h2, hc2⟩ := ih (count ds o) h1
    exact ⟨h2, hc1.trans hc2⟩

end Engine

end TickBacktest.Strategy
