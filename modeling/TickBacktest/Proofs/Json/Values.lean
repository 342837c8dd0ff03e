import TickBacktest.Proofs.Json.Documents

/-! # Values and documents

A document means a value whose objects have their keys in order, and which is nested no deeper than
was asked (`canonical_of_toJson?`). The document that such a value is written as means this value
(`toJson?_toSource`). -/

namespace TickBacktest.Json

/-- **A value as a document of its kind means it**: the numbers are those that can be read, the keys
of each object are in order, and arrays and objects nest no deeper than the depth. -/
inductive Canonical : ℕ → Json → Prop where
  | null (depth : ℕ) : Canonical depth .null
  | bool (depth : ℕ) (b : Bool) : Canonical depth (.bool b)
  | number (depth : ℕ) {n : Number} : n.InRange → Canonical depth (.number n)
  | text (depth : ℕ) (s : String) : Canonical depth (.text s)
  | array {depth : ℕ} {items : List Json} : (∀ x ∈ items, Canonical depth x) →
      Canonical (depth + 1) (.array items)
  | object {depth : ℕ} {entries : List (String × Json)} :
      (entries.map Prod.fst).Pairwise (· < ·) → (∀ e ∈ entries, Canonical depth e.2) →
      Canonical (depth + 1) (.object entries)

/-! ## Objects in order -/

section

variable {key : String} {x : Json} {entries : List (String × Json)}

theorem insertSorted_eq_append (h : ∀ e ∈ entries, e.1 < key) :
    insertSorted key x entries = entries ++ [(key, x)] := by
  induction entries with
  | nil => rfl
  | cons e es ih =>
    obtain ⟨he, hes⟩ := List.forall_mem_cons.mp h
    unfold insertSorted
    rw [if_neg (String.ne_of_lt he).symm, if_neg (String.lt_asymm he), ih hes, List.cons_append]

theorem mem_insertSorted {e : String × Json} (h : e ∈ insertSorted key x entries) :
    e = (key, x) ∨ e ∈ entries := by
  induction entries with
  | nil => exact .inl (List.mem_singleton.mp h)
  | cons f es ih =>
    unfold insertSorted at h
    split_ifs at h
    · exact (List.mem_cons.mp h).imp_right (List.mem_cons_of_mem f)
    · exact List.mem_cons.mp h
    · rcases List.mem_cons.mp h with rfl | h
      · exact .inr List.mem_cons_self
      · exact (ih h).imp_right (List.mem_cons_of_mem f)

theorem pairwise_insertSorted (h : (entries.map Prod.fst).Pairwise (· < ·)) :
    ((insertSorted key x entries).map Prod.fst).Pairwise (· < ·) := by
  induction entries with
  | nil => simp [insertSorted]
  | cons e es ih =>
    rw [List.map_cons, List.pairwise_cons] at h
    obtain ⟨hfirst, hrest⟩ := h
    unfold insertSorted
    split_ifs with heq hlt
    · rw [List.map_cons, List.pairwise_cons, heq]
      exact ⟨hfirst, hrest⟩
    · rw [List.map_cons, List.pairwise_cons, List.map_cons, List.pairwise_cons]
      refine ⟨fun k hk => ?_, hfirst, hrest⟩
      rcases List.mem_cons.mp hk with rfl | hk
      · exact hlt
      · exact String.lt_trans hlt (hfirst k hk)
    · rw [List.map_cons, List.pairwise_cons]
      refine ⟨fun k hk => ?_, ih hrest⟩
      obtain ⟨f, hf, rfl⟩ := List.mem_map.mp hk
      rcases mem_insertSorted hf with rfl | hf
      · by_contra hge
        exact heq (String.le_antisymm (String.not_lt.mp hge) (String.not_lt.mp hlt))
      · exact hfirst _ (List.mem_map_of_mem hf)

end

/-! ## From values to documents and back -/

theorem itemsToJson?_map {depth : ℕ} {items : List Json}
    (h : ∀ x ∈ items, x.toSource.toJson? depth = some x) :
    itemsToJson? depth (items.map toSource) = some items := by
  induction items with
  | nil => rfl
  | cons x xs ih =>
    obtain ⟨hx, hxs⟩ := List.forall_mem_cons.mp h
    rw [List.map_cons, itemsToJson?, hx, ih hxs]
    rfl

theorem entriesToJson?_map {depth : ℕ} {sorted entries : List (String × Json)}
    (hkeys : ((sorted ++ entries).map Prod.fst).Pairwise (· < ·))
    (h : ∀ e ∈ entries, e.2.toSource.toJson? depth = some e.2) :
    entriesToJson? depth sorted (entries.map fun e => (some e.1, e.2.toSource)) =
      some (sorted ++ entries) := by
  induction entries generalizing sorted with
  | nil => rw [List.append_nil]; rfl
  | cons e es ih =>
    obtain ⟨he, hes⟩ := List.forall_mem_cons.mp h
    have hlast : ∀ f ∈ sorted, f.1 < e.1 := by
      rw [List.map_append, List.pairwise_append] at hkeys
      exact fun f hf =>
        hkeys.2.2 _ (List.mem_map_of_mem hf) _ (List.mem_map_of_mem List.mem_cons_self)
    have happend : sorted ++ e :: es = insertSorted e.1 e.2 sorted ++ es := by
      rw [insertSorted_eq_append hlast, List.append_assoc, List.singleton_append]
    rw [happend] at hkeys ⊢
    rw [List.map_cons, entriesToJson?, he]
    exact ih hkeys hes

/-- **The document that a value is written as means this value.** -/
theorem toJson?_toSource {depth : ℕ} {j : Json} (h : Canonical depth j) :
    j.toSource.toJson? depth = some j := by
  induction h with
  | null depth => rw [toSource, Source.toJson?]
  | bool depth b => rw [toSource, Source.toJson?]
  | number depth _ => rw [toSource, Source.toJson?]; rfl
  | text depth s => rw [toSource, Source.toJson?]; rfl
  | array _ ih =>
    rw [toSource, Source.toJson?, itemsToSource_eq, itemsToJson?_map ih]
    rfl
  | object hkeys _ ih =>
    rw [toSource, Source.toJson?, entriesToSource_eq, @entriesToJson?_map _ [] _ hkeys ih]
    rfl

theorem mem_itemsToJson? {depth : ℕ} {items : List Source} {js : List Json}
    (h : itemsToJson? depth items = some js) {j : Json} (hj : j ∈ js) :
    ∃ x ∈ items, x.toJson? depth = some j := by
  induction items generalizing js with
  | nil =>
    cases h
    cases hj
  | cons x xs ih =>
    simp only [itemsToJson?, Option.bind_eq_bind, Option.bind_eq_some_iff, pure,
      Option.some.injEq] at h
    obtain ⟨y, hy, ys, hys, rfl⟩ := h
    rcases List.mem_cons.mp hj with rfl | hj
    · exact ⟨x, List.mem_cons_self, hy⟩
    · obtain ⟨z, hz, hzj⟩ := ih hys hj
      exact ⟨z, List.mem_cons_of_mem x hz, hzj⟩

theorem entriesToJson?_spec {depth : ℕ} {entries : List (Option String × Source)}
    {sorted found : List (String × Json)} (hsorted : (sorted.map Prod.fst).Pairwise (· < ·))
    (h : entriesToJson? depth sorted entries = some found) :
    (found.map Prod.fst).Pairwise (· < ·) ∧ ∀ f ∈ found, f ∈ sorted ∨
      ∃ e ∈ entries, e.2.toJson? depth = some f.2 := by
  induction entries generalizing sorted with
  | nil =>
    cases h
    exact ⟨hsorted, fun f hf => .inl hf⟩
  | cons e es ih =>
    simp only [entriesToJson?, Option.bind_eq_bind, Option.bind_eq_some_iff] at h
    obtain ⟨y, hy, key, hkey, h⟩ := h
    obtain ⟨hfound, hmem⟩ := ih (pairwise_insertSorted hsorted) h
    refine ⟨hfound, fun f hf => ?_⟩
    rcases hmem f hf with hf | ⟨d, hd, hdf⟩
    · rcases mem_insertSorted hf with rfl | hf
      · exact .inr ⟨e, List.mem_cons_self, hy⟩
      · exact .inl hf
    · exact .inr ⟨d, List.mem_cons_of_mem e hd, hdf⟩

theorem canonical_of_toJson? {x : Source} (hx : x.InRange) {depth : ℕ} {j : Json}
    (h : x.toJson? depth = some j) : Canonical depth j := by
  induction hx generalizing depth j with
  | null =>
    cases h
    exact .null depth
  | bool b =>
    cases h
    exact .bool depth b
  | number hn =>
    obtain ⟨n, rfl, rfl⟩ := Option.map_eq_some_iff.mp h
    exact .number depth (hn n rfl)
  | text s =>
    obtain ⟨s, rfl, rfl⟩ := Option.map_eq_some_iff.mp h
    exact .text depth s
  | array _ ih =>
    rcases depth with _ | depth
    · cases h
    · obtain ⟨js, hjs, rfl⟩ := Option.map_eq_some_iff.mp h
      refine .array fun j hj => ?_
      obtain ⟨x, hx, hxj⟩ := mem_itemsToJson? hjs hj
      exact ih x hx hxj
  | object _ ih =>
    rcases depth with _ | depth
    · cases h
    · obtain ⟨found, hfound, rfl⟩ := Option.map_eq_some_iff.mp h
      obtain ⟨hkeys, hmem⟩ := entriesToJson?_spec List.Pairwise.nil hfound
      refine .object hkeys fun f hf => ?_
      obtain hf | ⟨e, he, hef⟩ := hmem f hf
      · cases hf
      · exact ih e he hef

theorem Canonical.inRange {depth : ℕ} {j : Json} (h : Canonical depth j) :
    ∀ n ∈ j.numbers, n.InRange := by
  induction h with
  | null depth => simp [numbers]
  | bool depth b => simp [numbers]
  | number depth hn =>
    rw [numbers]
    simpa using hn
  | text depth s => simp [numbers]
  | array _ ih =>
    rw [numbers_array]
    intro n hn
    obtain ⟨x, hx, hn⟩ := List.mem_flatMap.mp hn
    exact ih x hx n hn
  | object _ _ ih =>
    rw [numbers_object]
    intro n hn
    obtain ⟨e, he, hn⟩ := List.mem_flatMap.mp hn
    exact ih e he n hn

end TickBacktest.Json
