import TickBacktest.Json.Record
import TickBacktest.Proofs.Json.Values
import TickBacktest.Proofs.Outcome

/-! # Records

The fields of a record that is written as an object whose keys all differ (`record?_object`), and
the fields, texts, lists and values of a record that is read. -/

namespace TickBacktest.Json.Source

section

variable {entries : List (Option String × Source)} {name : String}

theorem field?_of_not_mem (h : some name ∉ entries.map Prod.fst) :
    field? entries name = some none := by
  have hnone : entries.filter (·.1 = some name) = [] := by
    rw [List.filter_eq_nil_iff]
    intro e he hname
    exact h (List.mem_map.mpr ⟨e, he, by simpa using hname⟩)
  unfold field?
  rw [hnone]

/-- A field that stands once among the entries has the value it stands there with. -/
theorem field?_of_mem {x : Source} (hnodup : (entries.map Prod.fst).Nodup)
    (h : (some name, x) ∈ entries) : field? entries name = some (some x) := by
  have hone : entries.filter (·.1 = some name) = [(some name, x)] := by
    induction entries with
    | nil => cases h
    | cons e es ih =>
      rw [List.map_cons, List.nodup_cons] at hnodup
      rcases List.mem_cons.mp h with rfl | h
      · have hrest : es.filter (·.1 = some name) = [] := by
          rw [List.filter_eq_nil_iff]
          intro e he hname
          exact hnodup.1 (List.mem_map.mpr ⟨e, he, by simpa using hname⟩)
        rw [List.filter_cons_of_pos (by simp), hrest]
      · have hne : e.1 ≠ some name := by
          intro hname
          exact hnodup.1 (hname ▸ List.mem_map_of_mem h)
        rw [List.filter_cons_of_neg (by simpa using hne), ih hnodup.2 h]
  unfold field?
  rw [hone]

theorem mem_of_field? {x : Source} (h : field? entries name = some (some x)) :
    ∃ e ∈ entries, e.2 = x := by
  unfold field? at h
  split at h
  · cases h
  · next key y heq =>
    cases h
    exact ⟨_, List.mem_of_mem_filter (heq ▸ List.mem_singleton_self _), rfl⟩
  · cases h

/-- The fields of an object. -/
theorem record?_object {names : List String} {values : List (Option Source)}
    (hkeys : ∀ e ∈ entries, e.1.isSome)
    (h : List.Forall₂ (fun name v => field? entries name = some v) names values) :
    record? names (.object entries) = some values := by
  unfold record?
  dsimp only
  rw [if_pos (List.all_eq_true.mpr hkeys)]
  exact mapM_some_iff.mpr h

end

/-! ## What is read -/

/-- The fields of a record are parts of it. -/
theorem inRange_of_record? {names : List String} {x y : Source} {values : List (Option Source)}
    (hx : x.InRange) (h : record? names x = some values) (hy : some y ∈ values) : y.InRange := by
  cases hx with
  | object hentries =>
    simp only [record?] at h
    split_ifs at h
    obtain ⟨name, -, hname⟩ := exists_of_forall₂_of_mem (mapM_some_iff.mp h) hy
    obtain ⟨e, he, rfl⟩ := mem_of_field? hname
    exact hentries e he
  | array hitems =>
    simp only [record?] at h
    split_ifs at h
    cases h
    rcases List.mem_append.mp hy with hy | hy
    · obtain ⟨z, hz, hzy⟩ := List.mem_map.mp hy
      exact Option.some.inj hzy ▸ hitems z hz
    · cases List.eq_of_mem_replicate hy
  | null => cases h
  | bool b => cases h
  | number _ => cases h
  | text s => cases h

theorem mem_of_listOf? {β : Type} {read : Source → Option β} {v : Option Source} {bs : List β}
    (hv : ∀ x ∈ v, x.InRange) (h : listOf? read v = some bs) {b : β} (hb : b ∈ bs) :
    ∃ x : Source, x.InRange ∧ read x = some b := by
  unfold listOf? at h
  split at h
  · cases h
    cases hb
  · next items =>
    cases hv _ rfl with
    | array hitems =>
    obtain ⟨x, hx, hxb⟩ := exists_of_forall₂_of_mem (mapM_some_iff.mp h) hb
    exact ⟨x, hitems x hx, hxb⟩
  · cases h

theorem eq_null_of_toJson? {depth : ℕ} {x : Source} (h : x.toJson? depth = some .null) :
    x = .null := by
  cases x with
  | null => rfl
  | bool b => cases h
  | number n =>
    obtain ⟨m, -, hm⟩ := Option.map_eq_some_iff.mp h
    cases hm
  | text s =>
    obtain ⟨t, -, ht⟩ := Option.map_eq_some_iff.mp h
    cases ht
  | array items =>
    rcases depth with _ | depth
    · cases h
    · obtain ⟨js, -, hjs⟩ := Option.map_eq_some_iff.mp h
      cases hjs
  | object entries =>
    rcases depth with _ | depth
    · cases h
    · obtain ⟨es, -, hes⟩ := Option.map_eq_some_iff.mp h
      cases hes

/-- A value that may be left out is not null if it is there. -/
theorem canonical_of_optionalJson? {depth : ℕ} {v : Option Source} {j : Json}
    (hv : ∀ x ∈ v, x.InRange) (h : optionalJson? depth v = some (some j)) :
    j ≠ .null ∧ Canonical depth j := by
  unfold optionalJson? at h
  split at h
  · cases h
  · cases h
  · next x hnull =>
    obtain ⟨j', hj, hjj⟩ := Option.map_eq_some_iff.mp h
    cases hjj
    refine ⟨?_, canonical_of_toJson? (hv x rfl) hj⟩
    rintro rfl
    exact hnull (by rw [eq_null_of_toJson? hj])

/-! ## What was written -/

theorem optionalText?_text (s : Option String) :
    optionalText? ((s.map Json.text).map toSource) = some s := by
  cases s with
  | none => rfl
  | some s =>
    rw [Option.map_some, Option.map_some, toSource]
    rfl

theorem listOf?_array {β : Type} {read : Source → Option β} {write : β → Json} {bs : List β}
    (h : ∀ b ∈ bs, read (write b).toSource = some b) :
    listOf? read (some (Json.array (bs.map write)).toSource) = some bs := by
  rw [toSource, itemsToSource_eq, List.map_map]
  change (bs.map (toSource ∘ write)).mapM read = some bs
  rw [mapM_some_iff, List.forall₂_map_left_iff, List.forall₂_same]
  exact h

theorem optionalJson?_toSource {depth : ℕ} {v : Option Json}
    (h : ∀ j ∈ v, j ≠ .null ∧ Canonical depth j) :
    optionalJson? depth (v.map toSource) = some v := by
  rcases v with _ | j
  · rfl
  obtain ⟨hnull, hcanonical⟩ := h j rfl
  have hsource : j.toSource ≠ .null := by
    intro hs
    cases j with
    | null => exact hnull rfl
    | _ => rw [toSource] at hs; cases hs
  have hread := toJson?_toSource hcanonical
  rw [Option.map_some]
  unfold optionalJson?
  split
  · next heq => cases heq
  · next heq => exact absurd (Option.some.inj heq) hsource
  · next heq =>
    cases heq
    rw [hread]
    rfl

end TickBacktest.Json.Source
