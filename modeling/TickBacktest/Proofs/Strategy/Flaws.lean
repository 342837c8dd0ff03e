import Mathlib.Algebra.BigOperators.Group.List.Basic
import Mathlib.Algebra.Ring.Nat
import TickBacktest.Proofs.Expression.Sandbox
import TickBacktest.Proofs.Strategy.Preflight

/-! # Flaws counted one by one

The flaws of a strategy as authored, each looked at on its own and whatever else is wrong: those of
its functions (`FunctionSpec.flaws`), of the conditions of its rules (`ConditionSpec.flaws`) and of
the rules themselves (`RuleSpec.flaws`). The check lists one defect for each flaw of a condition
(`length_conditionDefects`) and of a rule (`length_ruleDefects`), in whatever combination they come.

Of a function without an id the check does not look at the expression, so that a flaw of the
expression is not listed until there is an id (`FunctionSpec.Hides`). Nothing else is hidden: the
defects and these flaws together are all the flaws (`length_defects_add_hidden`). -/

namespace TickBacktest.Strategy

open Expression (Comparison)

/-! ## Flaws -/

/-- A text that is not there, or empty. -/
def Missing (s : Option String) : Prop := s = none ∨ s = some ""

instance (s : Option String) : Decidable (Missing s) :=
  inferInstanceAs (Decidable (s = none ∨ s = some ""))

namespace FunctionSpec

variable (earlier : List FunctionSpec) (f : FunctionSpec)

/-- The id is that of an earlier function. -/
def Repeats : Prop := ¬ Missing f.id ∧ ∃ g ∈ earlier, g.id = f.id

/-- There is an expression, and it is not valid. -/
def Rejected : Prop := ∃ text ∈ f.expression, text ≠ "" ∧ (Expression.validate text).ok = false

/-- There is no id, and a flaw in the expression as well. -/
def Hides : Prop := Missing f.id ∧ (Missing f.expression ∨ f.Rejected)

instance : Decidable (f.Repeats earlier) :=
  inferInstanceAs (Decidable (¬ Missing f.id ∧ ∃ g ∈ earlier, g.id = f.id))

instance : Decidable f.Rejected :=
  inferInstanceAs (Decidable (∃ text ∈ f.expression, text ≠ "" ∧ _ = false))

instance : Decidable f.Hides :=
  inferInstanceAs (Decidable (Missing f.id ∧ (Missing f.expression ∨ f.Rejected)))

/-- How many flaws a function has that comes after the earlier ones. -/
def flaws : ℕ :=
  [decide (Missing f.id), decide (f.Repeats earlier), decide (Missing f.expression),
    decide f.Rejected].count true

end FunctionSpec

namespace ConditionSpec

variable (fs : List FunctionSpec) (c : ConditionSpec)

/-- No function is named, or none of these. -/
def LacksFunction : Prop := Missing c.functionId ∨ ∀ f ∈ fs, f.id ≠ c.functionId

/-- No operator is named, or none of a comparison. -/
def LacksOperator : Prop := ∀ op ∈ Comparison.all, c.operator ≠ some op.symbol

/-- There is no threshold, or not a number. -/
def LacksThreshold : Prop := ∀ n, c.threshold ≠ some (.number n)

instance : Decidable (c.LacksFunction fs) :=
  inferInstanceAs (Decidable (Missing c.functionId ∨ ∀ f ∈ fs, f.id ≠ c.functionId))

instance : Decidable c.LacksOperator :=
  inferInstanceAs (Decidable (∀ op ∈ Comparison.all, c.operator ≠ some op.symbol))

instance : Decidable c.LacksThreshold :=
  match h : c.threshold with
  | some (.number n) => isFalse fun hn => hn n h
  | none | some .null | some (.bool _) | some (.text _) | some (.array _) | some (.object _) =>
    isTrue fun _ hn => nomatch h.symm.trans hn

/-- How many flaws a condition on these functions has. -/
def flaws : ℕ :=
  [decide (c.LacksFunction fs), decide c.LacksOperator, decide c.LacksThreshold].count true

end ConditionSpec

namespace RuleSpec

variable (fs : List FunctionSpec) (r : RuleSpec)

/-- A logic is named, but there is none of that name. -/
def BadLogic : Prop := r.logic ≠ none ∧ ∀ l ∈ [Logic.and, .or], r.logic ≠ some l.name

/-- No action is named, or there is none of that name. -/
def LacksAction : Prop := ∀ a ∈ Action.all, r.action ≠ some a.name

instance : Decidable r.BadLogic :=
  inferInstanceAs (Decidable (r.logic ≠ none ∧ ∀ l ∈ [Logic.and, .or], r.logic ≠ some l.name))

instance : Decidable r.LacksAction :=
  inferInstanceAs (Decidable (∀ a ∈ Action.all, r.action ≠ some a.name))

/-- How many flaws a rule on these functions has, with those of its conditions. -/
def flaws : ℕ :=
  [decide (r.conditions = []), decide r.BadLogic, decide r.LacksAction].count true +
    (r.conditions.map (·.flaws fs)).sum

end RuleSpec

/-- How many flaws a strategy has. -/
def Spec.flaws (s : Spec) : ℕ :=
  [decide (s.functions = [])].count true +
    (s.functions.zipIdx.map fun (f, i) => f.flaws (s.functions.take i)).sum +
    (s.entryRules.map (·.flaws s.functions)).sum + (s.exitRules.map (·.flaws s.functions)).sum

/-! ## Conditions -/

theorem present_eq_none_iff {s : Option String} : present s = none ↔ Missing s := by
  unfold present Missing
  rw [Option.filter_eq_none_iff]
  rcases s with _ | t <;> simp

theorem not_missing_of_present {s : Option String} {t : String} (h : present s = some t) :
    ¬ Missing s := by
  rw [← present_eq_none_iff, h]
  exact Option.some_ne_none t

/-- An id is defined if it is that of a function. -/
theorem mem_definedIds_iff (fs : List FunctionSpec) {s : Option String} {id : String}
    (h : present s = some id) : id ∈ definedIds fs ↔ ∃ f ∈ fs, f.id = s := by
  obtain ⟨rfl, hne⟩ := present_eq_some_iff.mp h
  unfold definedIds
  simp only [List.mem_filterMap, present_eq_some_iff, hne, ne_eq, not_false_eq_true, and_true]

/-- A text that is missing names nothing. -/
theorem ne_of_missing {s : Option String} (h : Missing s) {t : String} (ht : t ≠ "") :
    s ≠ some t := by
  rintro rfl
  rcases h with h | h
  · cases h
  · exact ht (Option.some_inj.mp h)

/-- Something is found by its name unless nothing has that name. -/
theorem find?_isSome_iff {β : Type} (all : List β) (name : β → String) (t : String) :
    (all.find? (name · = t)).isSome = true ↔ ¬ ∀ x ∈ all, some t ≠ some (name x) := by
  rw [List.find?_isSome]
  push Not
  simp only [Option.some_inj, decide_eq_true_eq, @eq_comm _ t]

/-- A name that must be there, and be one of some names, gives one defect if it is not. -/
theorem length_named {β : Type} {all : List β} {name : β → String} (hname : ∀ x, name x ≠ "")
    (s : Option String) (missing : Defect) (invalid : String → Defect)
    [Decidable (∀ x ∈ all, s ≠ some (name x))] :
    (match present s with
      | none => [missing]
      | some t => if (all.find? (name · = t)).isSome then [] else [invalid t]).length =
      (decide (∀ x ∈ all, s ≠ some (name x))).toNat := by
  rcases hs : present s with _ | t
  · have hnone : ∀ x ∈ all, s ≠ some (name x) := fun x _ =>
      ne_of_missing (present_eq_none_iff.mp hs) (hname x)
    rw [decide_eq_true hnone]
    rfl
  · have hfound := find?_isSome_iff all name t
    rw [← (present_eq_some_iff.mp hs).1] at hfound
    by_cases hnone : ∀ x ∈ all, s ≠ some (name x)
    · rw [decide_eq_true hnone]
      exact congrArg List.length (if_neg fun h => hfound.mp h hnone)
    · rw [decide_eq_false hnone]
      exact congrArg List.length (if_pos (hfound.mpr hnone))

theorem symbol_ne_empty (op : Comparison) : op.symbol ≠ "" := by cases op <;> decide

theorem name_ne_empty (a : Action) : a.name ≠ "" := by cases a <;> decide

theorem count_true_cons (b : Bool) (bs : List Bool) :
    (b :: bs).count true = bs.count true + b.toNat := by
  cases b <;> simp

/-- **Each flaw of a condition is listed**, whichever others it has. -/
theorem length_conditionDefects (fs : List FunctionSpec) (rule : RulePlace) (i : ℕ)
    (c : ConditionSpec) : (conditionDefects (definedIds fs) rule i c).length = c.flaws fs := by
  have hflaws : c.flaws fs = (decide (c.LacksFunction fs)).toNat + (decide c.LacksOperator).toNat +
      (decide c.LacksThreshold).toNat := by
    unfold ConditionSpec.flaws
    simp only [count_true_cons, List.count_nil]
    omega
  unfold conditionDefects
  rw [hflaws, List.length_append, List.length_append]
  refine congrArg₂ (· + ·) (congrArg₂ (· + ·) ?function ?operator) ?threshold
  case function =>
    rcases hid : present c.functionId with _ | id
    · have hlacks : c.LacksFunction fs := .inl (present_eq_none_iff.mp hid)
      rw [decide_eq_true hlacks]
      rfl
    · have hknown := mem_definedIds_iff fs hid
      by_cases hmem : id ∈ definedIds fs
      · obtain ⟨f, hf, hfid⟩ := hknown.mp hmem
        have hlacks : ¬ c.LacksFunction fs := by
          rintro (h | h)
          · exact not_missing_of_present hid h
          · exact h f hf hfid
        simp [hmem, hlacks]
      · have hlacks : c.LacksFunction fs := .inr fun f hf h => hmem (hknown.mpr ⟨f, hf, h⟩)
        simp [hmem, hlacks]
  case operator =>
    exact length_named symbol_ne_empty c.operator (.missingOperator rule i)
      (.invalidOperator rule i)
  case threshold =>
    rcases ht : c.threshold with _ | _ | _ | n | _ | _ | _
    case some.number =>
      have hlacks : ¬ c.LacksThreshold := fun h => h n ht
      simp [hlacks]
    all_goals
      have hlacks : c.LacksThreshold := fun n h => nomatch ht.symm.trans h
      simp [hlacks]

/-! ## Rules -/

/-- Lists that are as long wherever they come make a list of that length. -/
theorem length_flatMap_zipIdx {β γ : Type} {f : β × ℕ → List γ} {g : β → ℕ}
    (h : ∀ x i, (f (x, i)).length = g x) (xs : List β) :
    ∀ start : ℕ, ((xs.zipIdx start).flatMap f).length = (xs.map g).sum := by
  induction xs with
  | nil => intro start; rfl
  | cons x xs ih =>
    intro start
    rw [List.zipIdx_cons, List.flatMap_cons, List.length_append, ih, h, List.map_cons,
      List.sum_cons]

/-- **Each flaw of a rule is listed**, with those of its conditions. -/
theorem length_ruleDefects (fs : List FunctionSpec) (rule : RulePlace) (r : RuleSpec) :
    (ruleDefects (definedIds fs) rule r).length = r.flaws fs := by
  have hflaws : r.flaws fs = (decide (r.conditions = [])).toNat +
      (r.conditions.map (·.flaws fs)).sum + (decide r.BadLogic).toNat +
      (decide r.LacksAction).toNat := by
    unfold RuleSpec.flaws
    simp only [count_true_cons, List.count_nil]
    omega
  unfold ruleDefects
  rw [hflaws, List.length_append, List.length_append, List.length_append,
    length_flatMap_zipIdx (fun c i => length_conditionDefects fs rule i c)]
  refine congrArg₂ (· + ·) (congrArg₂ (· + ·) (congrArg₂ (· + ·) ?conditions rfl) ?logic) ?action
  case conditions => rcases r.conditions with _ | ⟨c, cs⟩ <;> rfl
  case logic =>
    rcases hl : r.logic with _ | l
    · have hgood : ¬ r.BadLogic := fun h => h.1 hl
      have hsome : (Logic.ofName? r.logicName).isSome = true := by
        rw [RuleSpec.logicName, hl]
        decide
      simp [hgood, hsome]
    · have hname : r.logicName = l := by rw [RuleSpec.logicName, hl, Option.getD_some]
      have hfound := find?_isSome_iff [Logic.and, .or] (·.name) l
      by_cases hbad : r.BadLogic
      · have hnone : ¬ (Logic.ofName? l).isSome = true := fun h => hfound.mp h (hl ▸ hbad.2)
        simp [hbad, hname, hnone]
      · have hsome : (Logic.ofName? l).isSome = true := by
          refine hfound.mpr fun h => hbad ⟨?_, hl ▸ h⟩
          rw [hl]
          exact Option.some_ne_none l
        simp [hbad, hname, hsome]
  case action =>
    exact length_named name_ne_empty r.action (.missingAction rule) (.invalidAction rule)

theorem length_rulesDefects (fs : List FunctionSpec) (list : RuleList) (rs : List RuleSpec) :
    (rulesDefects (definedIds fs) list rs).length = (rs.map (·.flaws fs)).sum :=
  length_flatMap_zipIdx (fun _ _ => length_ruleDefects fs _ _) rs 1

/-! ## Functions -/

theorem FunctionSpec.not_rejected_of_missing {f : FunctionSpec} (h : Missing f.expression) :
    ¬ f.Rejected := by
  rintro ⟨text, htext, hne, -⟩
  exact ne_of_missing h hne htext

/-- **Each flaw of an expression is listed** where it is looked at. -/
theorem length_expression (f : FunctionSpec) (label : String) :
    (match present f.expression with
      | none => [Defect.missingExpression label]
      | some text =>
        match Expression.accept text with
        | .ok _ => []
        | .error r => [.rejected label r]).length =
      (decide (Missing f.expression)).toNat + (decide f.Rejected).toNat := by
  rcases ht : present f.expression with _ | text
  · have hmissing := present_eq_none_iff.mp ht
    simp [hmissing, FunctionSpec.not_rejected_of_missing hmissing]
  · have hmissing := not_missing_of_present ht
    obtain ⟨htext, hne⟩ := present_eq_some_iff.mp ht
    rcases ha : Expression.accept text with r | n
    · have hrejected : f.Rejected :=
        ⟨text, htext, hne, by rw [Expression.validate_of_reject ha]⟩
      simp [ha, hmissing, hrejected]
    · have hrejected : ¬ f.Rejected := by
        rintro ⟨text', htext', -, hfalse⟩
        cases htext.symm.trans htext'
        rw [Expression.validate_of_accept ha] at hfalse
        cases hfalse
      simp [ha, hmissing, hrejected]

/-- **Each flaw of a function is listed**, but for one that hides behind a missing id. -/
theorem length_functionDefects (earlier : List FunctionSpec) (label : String) (f : FunctionSpec) :
    (functionDefects (definedIds earlier) label f).length + (decide f.Hides).toNat =
      f.flaws earlier := by
  have hflaws : f.flaws earlier = (decide (Missing f.id)).toNat +
      (decide (f.Repeats earlier)).toNat +
      ((decide (Missing f.expression)).toNat + (decide f.Rejected).toNat) := by
    unfold FunctionSpec.flaws
    simp only [count_true_cons, List.count_nil]
    omega
  rw [hflaws]
  unfold functionDefects
  rcases hid : present f.id with _ | id
  · have hmissing := present_eq_none_iff.mp hid
    have hrepeats : ¬ f.Repeats earlier := fun h => h.1 hmissing
    have hhides : f.Hides ↔ Missing f.expression ∨ f.Rejected := and_iff_right hmissing
    by_cases hexpression : Missing f.expression
    · simp [hmissing, hrepeats, hhides, hexpression,
        FunctionSpec.not_rejected_of_missing hexpression]
    · by_cases hrejected : f.Rejected <;>
        simp [hmissing, hrepeats, hhides, hexpression, hrejected]
  · have hmissing := not_missing_of_present hid
    have hhides : ¬ f.Hides := fun h => hmissing h.1
    have hrepeats : (if id ∈ definedIds earlier then [Defect.duplicateId id] else []).length =
        (decide (f.Repeats earlier)).toNat := by
      have hknown := mem_definedIds_iff earlier hid
      by_cases hmem : id ∈ definedIds earlier
      · have hrepeats : f.Repeats earlier := ⟨hmissing, hknown.mp hmem⟩
        simp [hmem, hrepeats]
      · have hrepeats : ¬ f.Repeats earlier := fun h => hmem (hknown.mpr h.2)
        simp [hmem, hrepeats]
    rw [decide_eq_false hmissing, decide_eq_false hhides, Bool.toNat_false, Nat.add_zero,
      Nat.zero_add, ← hrepeats, ← length_expression f label]
    -- Both sides look at the same outcome; comparing them must not start to compute it.
    generalize Expression.accept = accept
    exact List.length_append

/-- Functions after the earlier ones, with the flaws that hide. -/
theorem length_functionsDefects (fs : List FunctionSpec) : ∀ (earlier : List FunctionSpec)
    (index : ℕ), (functionsDefects (definedIds earlier) index fs).length +
      fs.countP (·.Hides) =
        ((fs.zipIdx earlier.length).map fun p => p.1.flaws ((earlier ++ fs).take p.2)).sum := by
  induction fs with
  | nil => intro earlier index; rfl
  | cons f fs ih =>
    intro earlier index
    have hids : definedIds earlier ++ (present f.id).toList = definedIds (earlier ++ [f]) := by
      unfold definedIds
      rw [List.filterMap_append]
      rcases hid : present f.id with _ | id <;> simp [hid]
    have hf := length_functionDefects earlier (functionLabel f index) f
    have hfs := ih (earlier ++ [f]) (index + 1)
    rw [List.append_assoc, List.singleton_append, List.length_append, List.length_singleton] at hfs
    rw [functionsDefects, hids, List.length_append, List.countP_cons, List.zipIdx_cons,
      List.map_cons, List.sum_cons, List.take_left, ← hfs, ← hf]
    by_cases hhides : f.Hides <;> simp [hhides] <;> omega

/-! ## Strategies -/

theorem length_defects_add_hidden (s : Spec) :
    s.defects.length + s.functions.countP (·.Hides) = s.flaws := by
  have hnone : (if s.functions.isEmpty then [Defect.noFunctions] else []).length =
      [decide (s.functions = [])].count true := by
    rcases s.functions with _ | ⟨f, fs⟩ <;> rfl
  have hfunctions := length_functionsDefects s.functions [] 0
  rw [List.length_nil, List.nil_append] at hfunctions
  unfold Spec.defects Spec.flaws
  dsimp only
  rw [List.length_append, List.length_append, List.length_append, hnone, length_rulesDefects,
    length_rulesDefects, ← hfunctions]
  show _ + (functionsDefects (definedIds []) 0 s.functions).length + _ + _ + _ = _
  omega

/-- Nothing hides behind an id, or where the expression is valid. -/
theorem FunctionSpec.not_hides_iff {f : FunctionSpec} : ¬ f.Hides ↔ (Missing f.id →
    ∃ text ∈ f.expression, text ≠ "" ∧ (Expression.validate text).ok = true) := by
  constructor
  · intro h hid
    rcases ht : present f.expression with _ | text
    · exact absurd ⟨hid, .inl (present_eq_none_iff.mp ht)⟩ h
    · obtain ⟨htext, hne⟩ := present_eq_some_iff.mp ht
      refine ⟨text, htext, hne, ?_⟩
      by_contra hinvalid
      exact h ⟨hid, .inr ⟨text, htext, hne, Bool.eq_false_iff.mpr hinvalid⟩⟩
  · rintro h ⟨hid, hflaw⟩
    obtain ⟨text, htext, hne, hvalid⟩ := h hid
    rcases hflaw with hmissing | ⟨text', htext', -, hinvalid⟩
    · exact ne_of_missing hmissing hne htext
    · cases htext.symm.trans htext'
      rw [hvalid] at hinvalid
      cases hinvalid

/-- **How exhaustive the check is.** The defects that are listed, and one flaw for each function
that hides one, are all the flaws of the strategy. So there are as many defects as flaws exactly if
every function without an id has a valid expression. -/
theorem defects_exhaustive (s : Spec) :
    s.defects.length + s.functions.countP (·.Hides) = s.flaws ∧
    (s.defects.length = s.flaws ↔ ∀ f ∈ s.functions, Missing f.id →
      ∃ text ∈ f.expression, text ≠ "" ∧ (Expression.validate text).ok = true) := by
  have hsum := length_defects_add_hidden s
  refine ⟨hsum, ?_⟩
  have hnone : s.defects.length = s.flaws ↔ s.functions.countP (·.Hides) = 0 := by omega
  rw [hnone, List.countP_eq_zero]
  refine forall₂_congr fun f _ => ?_
  rw [decide_eq_true_iff, FunctionSpec.not_hides_iff]

/-- A strategy with one function of which nothing is said. -/
def nothingSaid : Spec where
  name := none
  functions := [⟨none, none, none⟩]
  entryRules := []
  exitRules := []

/-- The missing id hides that there is no expression either. -/
theorem missingId_hides_expression : nothingSaid.defects.length = 1 ∧ nothingSaid.flaws = 2 := by
  decide +kernel

end TickBacktest.Strategy
