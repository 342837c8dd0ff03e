import Mathlib.Data.List.Nodup
import TickBacktest.Proofs.Json.Records
import TickBacktest.Strategy.Preflight

/-! # Strategy documents

The document that a strategy is written as is read as this strategy, record by record: a field that
is not there is left out and read as not there (`record?_fields`), a text, a list and a threshold
are read back as they are written. -/

namespace TickBacktest.Strategy

open Json (Source Canonical)
open Json.Source (record? optionalText? listOf? optionalJson?)

/-! ## Fields -/

section

variable {fields : List (String × Option Json)}

theorem mem_entry {name key : String} {value : Option Json} {x : Json} :
    (key, x) ∈ entry name value ↔ key = name ∧ value = some x := by
  unfold entry
  split
  · simp [eq_comm]
  · simp

/-- The object of the fields that are there. -/
def recordJson (fields : List (String × Option Json)) : Json :=
  .object (fields.flatMap fun f => entry f.1 f.2)

theorem sublist_fields (fields : List (String × Option Json)) :
    ((fields.flatMap fun f => entry f.1 f.2).map Prod.fst).Sublist (fields.map Prod.fst) := by
  induction fields with
  | nil => exact .slnil
  | cons f fs ih =>
    rw [List.flatMap_cons, List.map_append, List.map_cons]
    rcases hf : f.2 with _ | x
    · exact ih.cons f.1
    · exact ih.cons_cons f.1

/-- **The fields of a record that are there are read, and the others are not there.** -/
theorem record?_fields (hnodup : (fields.map Prod.fst).Nodup) :
    record? (fields.map Prod.fst) (recordJson fields).toSource =
      some (fields.map fun f => f.2.map Json.toSource) := by
  rw [recordJson, Json.toSource, Json.entriesToSource_eq]
  have hkeys : (((fields.flatMap fun f => entry f.1 f.2).map fun e =>
      (some e.1, e.2.toSource)).map Prod.fst).Nodup := by
    rw [List.map_map]
    have hsome := ((sublist_fields fields).nodup hnodup).map (Option.some_injective String)
    rwa [List.map_map] at hsome
  refine Source.record?_object ?_ ?_
  · intro e he
    obtain ⟨d, -, rfl⟩ := List.mem_map.mp he
    rfl
  rw [List.forall₂_map_left_iff, List.forall₂_map_right_iff, List.forall₂_same]
  intro f hf
  rcases hvalue : f.2 with _ | x
  · refine Source.field?_of_not_mem fun hmem => ?_
    obtain ⟨d, hd, hname⟩ := List.mem_map.mp hmem
    obtain ⟨⟨key, x⟩, he, rfl⟩ := List.mem_map.mp hd
    obtain ⟨g, hg, hentry⟩ := List.mem_flatMap.mp he
    obtain ⟨rfl, hx⟩ := mem_entry.mp hentry
    have hgf : g = f := List.inj_on_of_nodup_map hnodup hg hf (Option.some.inj hname)
    rw [← hgf, hx] at hvalue
    cases hvalue
  · refine Source.field?_of_mem hkeys (List.mem_map.mpr ⟨(f.1, x), ?_, rfl⟩)
    exact List.mem_flatMap.mpr ⟨f, hf, mem_entry.mpr ⟨rfl, hvalue⟩⟩

end

/-! ## Records -/

def FunctionSpec.fields (f : FunctionSpec) : List (String × Option Json) :=
  [("id", f.id.map .text), ("name", f.name.map .text), ("expression", f.expression.map .text)]

def ConditionSpec.fields (c : ConditionSpec) : List (String × Option Json) :=
  [("function_id", c.functionId.map .text), ("operator", c.operator.map .text),
    ("threshold", c.threshold)]

def RuleSpec.fields (r : RuleSpec) : List (String × Option Json) :=
  [("conditions", some (.array (r.conditions.map (·.toJson)))), ("logic", r.logic.map .text),
    ("action", r.action.map .text)]

def Spec.fields (s : Spec) : List (String × Option Json) :=
  [("name", s.name.map .text), ("functions", some (.array (s.functions.map (·.toJson)))),
    ("entry_rules", some (.array (s.entryRules.map (·.toJson)))),
    ("exit_rules", some (.array (s.exitRules.map (·.toJson))))]

theorem FunctionSpec.toJson_eq (f : FunctionSpec) : f.toJson = recordJson f.fields := by
  simp [toJson, recordJson, fields]

theorem ConditionSpec.toJson_eq (c : ConditionSpec) : c.toJson = recordJson c.fields := by
  simp [toJson, recordJson, fields]

theorem RuleSpec.toJson_eq (r : RuleSpec) : r.toJson = recordJson r.fields := by
  simp [toJson, recordJson, fields, entry]

theorem Spec.toJson_eq (s : Spec) : s.toJson = recordJson s.fields := by
  simp [toJson, recordJson, fields, entry]

theorem FunctionSpec.ofSource?_toJson (f : FunctionSpec) :
    ofSource? f.toJson.toSource = some f := by
  have hrecord := @record?_fields f.fields (by simp [fields])
  rw [← toJson_eq] at hrecord
  simp only [fields, List.map_cons, List.map_nil] at hrecord
  simp only [ofSource?, hrecord, Source.optionalText?_text, Option.bind_eq_bind, Option.bind_some]
  rfl

theorem ConditionSpec.ofSource?_toJson {depth : ℕ} {c : ConditionSpec}
    (h : ∀ j ∈ c.threshold, j ≠ .null ∧ Canonical depth j) :
    ofSource? depth c.toJson.toSource = some c := by
  have hrecord := @record?_fields c.fields (by simp [fields])
  rw [← toJson_eq] at hrecord
  simp only [fields, List.map_cons, List.map_nil] at hrecord
  simp only [ofSource?, hrecord, Source.optionalText?_text, Source.optionalJson?_toSource h,
    Option.bind_eq_bind, Option.bind_some]
  rfl

/-- The thresholds of a rule. -/
def RuleSpec.thresholds (r : RuleSpec) : List Json := r.conditions.filterMap (·.threshold)

theorem RuleSpec.ofSource?_toJson {levels : ℕ} {r : RuleSpec}
    (h : ∀ j ∈ r.thresholds, j ≠ .null ∧ Canonical (Json.maxNesting - (levels + 3)) j) :
    ofSource? levels r.toJson.toSource = some r := by
  have hrecord := @record?_fields r.fields (by simp [fields])
  have hconditions : ∀ c ∈ r.conditions,
      ConditionSpec.ofSource? (Json.maxNesting - (levels + 3)) c.toJson.toSource = some c :=
    fun c hc => ConditionSpec.ofSource?_toJson fun j hj =>
      h j (List.mem_filterMap.mpr ⟨c, hc, hj⟩)
  rw [← toJson_eq] at hrecord
  simp only [fields, List.map_cons, List.map_nil, Option.map_some] at hrecord
  simp only [ofSource?, hrecord, Source.optionalText?_text, Source.listOf?_array hconditions,
    Option.bind_eq_bind, Option.bind_some]
  rfl

/-- The thresholds of a strategy. -/
def Spec.thresholds (s : Spec) : List Json := (s.entryRules ++ s.exitRules).flatMap (·.thresholds)

/-- How deep a threshold may nest: above it are a condition, the list it stands in, its rule, the
list of rules and the strategy. -/
def thresholdDepth : ℕ := Json.maxNesting - 5

theorem Spec.ofSource?_toJson {s : Spec}
    (h : ∀ j ∈ s.thresholds, j ≠ .null ∧ Canonical thresholdDepth j) :
    ofSource? s.toJson.toSource = some s := by
  have hrecord := @record?_fields s.fields (by simp [fields])
  have hfunctions : ∀ f ∈ s.functions, FunctionSpec.ofSource? f.toJson.toSource = some f :=
    fun f _ => f.ofSource?_toJson
  have hrules : ∀ r ∈ s.entryRules ++ s.exitRules,
      RuleSpec.ofSource? 2 r.toJson.toSource = some r :=
    fun r hr => RuleSpec.ofSource?_toJson fun j hj => h j (List.mem_flatMap.mpr ⟨r, hr, hj⟩)
  obtain ⟨hentry, hexit⟩ := List.forall_mem_append.mp hrules
  rw [← toJson_eq] at hrecord
  simp only [fields, List.map_cons, List.map_nil, Option.map_some] at hrecord
  simp only [ofSource?, hrecord, Source.optionalText?_text, Source.listOf?_array hfunctions,
    Source.listOf?_array hentry, Source.listOf?_array hexit, Option.bind_eq_bind, Option.bind_some]
  rfl

/-! ## Numbers -/

theorem numbers_recordJson (fields : List (String × Option Json)) :
    (recordJson fields).numbers = fields.flatMap fun f => f.2.toList.flatMap Json.numbers := by
  have hentry : ∀ f : String × Option Json,
      (entry f.1 f.2).flatMap (·.2.numbers) = f.2.toList.flatMap Json.numbers := by
    rintro ⟨name, _ | x⟩
    · rfl
    · rw [entry, List.flatMap_singleton, Option.toList_some, List.flatMap_singleton]
  rw [recordJson, Json.numbers_object, List.flatMap_assoc]
  exact List.flatMap_congr fun f _ => hentry f

theorem numbers_of_text (value : Option String) :
    (value.map Json.text).toList.flatMap Json.numbers = [] := by
  rcases value with _ | s
  · rfl
  · simp [Json.numbers]

theorem numbers_of_array {α : Type} (xs : List α) (toJson : α → Json) :
    (some (Json.array (xs.map toJson))).toList.flatMap Json.numbers =
      xs.flatMap fun x => (toJson x).numbers := by
  rw [Option.toList_some, List.flatMap_singleton, Json.numbers_array, List.flatMap_map]

theorem FunctionSpec.numbers_toJson (f : FunctionSpec) : f.toJson.numbers = [] := by
  simp only [toJson_eq, numbers_recordJson, fields, List.flatMap_cons, List.flatMap_nil,
    numbers_of_text, List.append_nil]

theorem ConditionSpec.numbers_toJson (c : ConditionSpec) :
    c.toJson.numbers = c.threshold.toList.flatMap Json.numbers := by
  simp only [toJson_eq, numbers_recordJson, fields, List.flatMap_cons, List.flatMap_nil,
    numbers_of_text, List.nil_append, List.append_nil]

theorem RuleSpec.numbers_toJson (r : RuleSpec) :
    r.toJson.numbers = r.thresholds.flatMap Json.numbers := by
  simp only [toJson_eq, numbers_recordJson, fields, List.flatMap_cons, List.flatMap_nil,
    numbers_of_text, numbers_of_array, List.append_nil, ConditionSpec.numbers_toJson]
  rw [thresholds, List.filterMap_eq_flatMap_toList, List.flatMap_assoc]

/-- The numbers in the document of a strategy are those of its thresholds. -/
theorem Spec.numbers_toJson (s : Spec) : s.toJson.numbers = s.thresholds.flatMap Json.numbers := by
  have hfunctions : (s.functions.flatMap fun _ => ([] : List Json.Number)) = [] := by
    rw [List.flatMap_eq_nil_iff]
    exact fun _ _ => rfl
  simp only [toJson_eq, numbers_recordJson, fields, List.flatMap_cons, List.flatMap_nil,
    numbers_of_text, numbers_of_array, List.nil_append, List.append_nil, RuleSpec.numbers_toJson,
    FunctionSpec.numbers_toJson, hfunctions, thresholds, List.flatMap_append, List.flatMap_assoc]

/-! ## What is read -/

section

variable {x : Source}

theorem ConditionSpec.threshold_of_ofSource? (hx : x.InRange) {depth : ℕ} {c : ConditionSpec}
    (h : ofSource? depth x = some c) {j : Json} (hj : c.threshold = some j) :
    j ≠ .null ∧ Canonical depth j := by
  unfold ofSource? at h
  obtain ⟨values, hvalues, h⟩ := Option.bind_eq_some_iff.mp h
  split at h
  case h_2 => cases h
  next functionId operator threshold =>
  simp only [Option.bind_eq_bind, Option.bind_eq_some_iff, pure, Option.some.injEq] at h
  obtain ⟨_, -, _, -, t, ht, rfl⟩ := h
  have hrange : ∀ y ∈ threshold, y.InRange := fun y hy =>
    Source.inRange_of_record? hx hvalues (by simp [Option.mem_def.mp hy])
  exact Source.canonical_of_optionalJson? hrange (ht.trans (congrArg some hj))

theorem RuleSpec.thresholds_of_ofSource? (hx : x.InRange) {levels : ℕ} {r : RuleSpec}
    (h : ofSource? levels x = some r) {j : Json} (hj : j ∈ r.thresholds) :
    j ≠ .null ∧ Canonical (Json.maxNesting - (levels + 3)) j := by
  unfold ofSource? at h
  obtain ⟨values, hvalues, h⟩ := Option.bind_eq_some_iff.mp h
  split at h
  case h_2 => cases h
  next conditions logic action =>
  simp only [Option.bind_eq_bind, Option.bind_eq_some_iff, pure, Option.some.injEq] at h
  obtain ⟨cs, hcs, _, -, _, -, rfl⟩ := h
  have hrange : ∀ y ∈ conditions, y.InRange := fun y hy =>
    Source.inRange_of_record? hx hvalues (by simp [Option.mem_def.mp hy])
  obtain ⟨c, hc, hcj⟩ := List.mem_filterMap.mp hj
  obtain ⟨y, hy, hyc⟩ := Source.mem_of_listOf? hrange hcs hc
  exact ConditionSpec.threshold_of_ofSource? hy hyc hcj

theorem Spec.thresholds_of_ofSource? (hx : x.InRange) {s : Spec} (h : ofSource? x = some s)
    {j : Json} (hj : j ∈ s.thresholds) : j ≠ .null ∧ Canonical thresholdDepth j := by
  unfold ofSource? at h
  obtain ⟨values, hvalues, h⟩ := Option.bind_eq_some_iff.mp h
  split at h
  case h_2 => cases h
  next name functions entryRules exitRules =>
  simp only [Option.bind_eq_bind, Option.bind_eq_some_iff, pure, Option.some.injEq] at h
  obtain ⟨_, -, _, -, entry, hentry, exit, hexit, rfl⟩ := h
  have hrange : ∀ y, some y ∈ [entryRules, exitRules] → y.InRange := fun y hy =>
    Source.inRange_of_record? hx hvalues (by simp_all)
  obtain ⟨r, hr, hrj⟩ := List.mem_flatMap.mp hj
  have hread : ∃ y : Source, y.InRange ∧ RuleSpec.ofSource? 2 y = some r := by
    rcases List.mem_append.mp hr with hr | hr
    · exact Source.mem_of_listOf? (fun y hy => hrange y (by simp [Option.mem_def.mp hy])) hentry hr
    · exact Source.mem_of_listOf? (fun y hy => hrange y (by simp [Option.mem_def.mp hy])) hexit hr
  obtain ⟨y, hy, hyr⟩ := hread
  exact RuleSpec.thresholds_of_ofSource? hy hyr hrj

end

/-! ## Round trip -/

namespace Spec

/-- The strategy that a document holds. -/
def parse? (text : String) : Option Spec := (Json.read? text).bind ofSource?

/-- The document that a strategy is written as. -/
def text (s : Spec) : String := s.toJson.compact

/-- The doubles in the thresholds are read back from their texts. -/
def DoublesReadBack (s : Spec) : Prop :=
  ∀ j ∈ s.thresholds, ∀ x, Json.Number.float x ∈ j.numbers → (Json.Number.float x).ReadsBack

theorem parse?_text {s : Spec} (h : ∀ j ∈ s.thresholds, j ≠ .null ∧ Canonical thresholdDepth j)
    (hd : s.DoublesReadBack) : parse? s.text = some s := by
  have hnumbers : ∀ n ∈ s.toJson.numbers, n.ReadsBack := by
    rw [numbers_toJson]
    intro n hn
    obtain ⟨j, hj, hn⟩ := List.mem_flatMap.mp hn
    cases n with
    | integer n => exact Json.readsBack_integer ((h j hj).2.inRange _ hn)
    | float x => exact hd j hj x hn
  unfold parse? text
  rw [Json.read?_compact hnumbers, Option.bind_some, ofSource?_toJson h]

theorem thresholds_of_parse? {text : String} {s : Spec} (h : parse? text = some s) :
    ∀ j ∈ s.thresholds, j ≠ .null ∧ Canonical thresholdDepth j := by
  obtain ⟨x, hx, hs⟩ := Option.bind_eq_some_iff.mp h
  exact fun j hj => thresholds_of_ofSource? (Json.inRange_read? hx) hs hj

/-- **Strategy documents round-trip.** -/
theorem documents_round_trip :
    (∀ s : Spec, (∀ j ∈ s.thresholds, j ≠ .null ∧ Canonical thresholdDepth j) →
      s.DoublesReadBack → parse? s.text = some s) ∧
    ∀ (text : String) (s : Spec), parse? text = some s → s.DoublesReadBack →
      parse? s.text = some s ∧ (parse? s.text).map build = (parse? text).map build ∧
        (parse? s.text).map (fun t => (t.defects, t.warnings)) =
          (parse? text).map fun t => (t.defects, t.warnings) := by
  refine ⟨fun s h hd => parse?_text h hd, fun text s hs hd => ?_⟩
  have hback : parse? s.text = some s := parse?_text (thresholds_of_parse? hs) hd
  rw [hback, hs]
  exact ⟨rfl, rfl, rfl⟩

/-- A strategy without exit rules whose thresholds are a double and an object. -/
def sampler : Spec where
  name := some "\t\"half\"\x01"
  functions := [⟨some "average", none, some "SMA(mid, 3)"⟩]
  entryRules := [⟨[⟨some "average", some ">", some (.number (.float 30.5))⟩, ⟨none, none, some
    (.object [("a", .array [.null, .number (.integer (-2))]), ("b", .text "é")])⟩],
    none, some "buy"⟩]
  exitRules := []

/-- Another document of it: keys in another order, a null, a key that means nothing, a function as
an array, no list of exit rules. -/
def samplerDocument : Json :=
  .object [("entry_rules", .array [.object [("action", .text "buy"), ("logic", .null),
      ("conditions", .array [
        .object [("operator", .text ">"), ("threshold", .number (.float 30.5)),
          ("function_id", .text "average")],
        .object [("threshold", .object [("b", .text "é"), ("a", .array [.null,
          .number (.integer (-2))])])]])]]),
    ("comment", .number (.integer 1)),
    ("functions", .array [.array [.text "average", .null, .text "SMA(mid, 3)"]]),
    ("name", .text "\t\"half\"\x01")]

theorem round_trip_sampler :
    parse? sampler.text = some sampler ∧ parse? samplerDocument.compact = some sampler ∧
      (parse? sampler.text).map build = (parse? samplerDocument.compact).map build := by
  have hcanonical : ∀ j ∈ sampler.thresholds, j ≠ .null ∧ Canonical thresholdDepth j := by
    change ∀ j ∈ [Json.number (.float 30.5),
      .object [("a", .array [.null, .number (.integer (-2))]), ("b", .text "é")]], _
    simp only [List.forall_mem_cons, List.not_mem_nil, false_imp_iff, implies_true, and_true]
    refine ⟨⟨nofun, .number _ trivial⟩, nofun, .object (by decide) ?_⟩
    simp only [List.forall_mem_cons, List.not_mem_nil, false_imp_iff, implies_true, and_true]
    refine ⟨.array ?_, .text _ _⟩
    simp only [List.forall_mem_cons, List.not_mem_nil, false_imp_iff, implies_true, and_true]
    exact ⟨.null _, .number _ ⟨by decide, by decide⟩⟩
  have hdoubles : sampler.DoublesReadBack := by
    intro j hj x hx
    change j ∈ [Json.number (.float 30.5),
      .object [("a", .array [.null, .number (.integer (-2))]), ("b", .text "é")]] at hj
    have hx : x = 30.5 := by
      rcases List.mem_pair.mp hj with rfl | rfl
      · simpa [Json.numbers] using hx
      · simp [Json.numbers, Json.entriesNumbers, Json.itemsNumbers] at hx
    rw [hx]
    decide +kernel
  have hparse : parse? samplerDocument.compact = some sampler := by
    unfold parse?
    rw [Json.read?_compact (by decide +kernel)]
    rfl
  exact ⟨documents_round_trip.1 sampler hcanonical hdoubles, hparse,
    (documents_round_trip.2 samplerDocument.compact sampler hparse hdoubles).2.1⟩

example : sampler.text = "\x7b\"name\":\"\\t\\\"half\\\"\\u0001\"," ++
    "\"functions\":[\x7b\"id\":\"average\",\"expression\":\"SMA(mid, 3)\"\x7d]," ++
    "\"entry_rules\":[\x7b\"conditions\":[\x7b\"function_id\":\"average\"," ++
    "\"operator\":\">\",\"threshold\":30.5\x7d,\x7b\"threshold\":" ++
    "\x7b\"a\":[null,-2],\"b\":\"é\"\x7d\x7d],\"action\":\"buy\"\x7d],\"exit_rules\":[]\x7d" := by
  decide +kernel

end Spec

end TickBacktest.Strategy
