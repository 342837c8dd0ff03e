import TickBacktest.Json.Record

/-! # Strategies as authored

What a strategy document says. Every part may be missing or wrong, so that all the problems of a
document can be told at once (`Strategy.Preflight`). A document is read and written here; the parts
that are missing are left out when it is written. -/

namespace TickBacktest.Strategy

/-- A function as authored. -/
structure FunctionSpec where
  id : Option String
  name : Option String
  expression : Option String

/-- A condition as authored. -/
structure ConditionSpec where
  functionId : Option String
  operator : Option String
  threshold : Option Json

/-- A rule as authored. -/
structure RuleSpec where
  conditions : List ConditionSpec
  logic : Option String
  action : Option String

/-- A strategy as authored. -/
structure Spec where
  name : Option String
  functions : List FunctionSpec
  entryRules : List RuleSpec
  exitRules : List RuleSpec

open Json (Source)
open Json.Source (record? optionalText? listOf? optionalJson?)

/-! ## Reading -/

/-- Reads a function. -/
def FunctionSpec.ofSource? (x : Source) : Option FunctionSpec := do
  match ← record? ["id", "name", "expression"] x with
  | [id, name, expression] =>
    return ⟨← optionalText? id, ← optionalText? name, ← optionalText? expression⟩
  | _ => none

/-- Reads a condition whose threshold may nest `depth` levels. -/
def ConditionSpec.ofSource? (depth : Nat) (x : Source) : Option ConditionSpec := do
  match ← record? ["function_id", "operator", "threshold"] x with
  | [functionId, operator, threshold] =>
    return ⟨← optionalText? functionId, ← optionalText? operator,
      ← optionalJson? depth threshold⟩
  | _ => none

/-- Reads a rule that stands under `levels` arrays and objects. -/
def RuleSpec.ofSource? (levels : Nat) (x : Source) : Option RuleSpec := do
  match ← record? ["conditions", "logic", "action"] x with
  | [conditions, logic, action] =>
    let depth := Json.maxNesting - (levels + 3)
    return ⟨← listOf? (ConditionSpec.ofSource? depth) conditions, ← optionalText? logic,
      ← optionalText? action⟩
  | _ => none

/-- Reads a strategy. -/
def Spec.ofSource? (x : Source) : Option Spec := do
  match ← record? ["name", "functions", "entry_rules", "exit_rules"] x with
  | [name, functions, entryRules, exitRules] =>
    return ⟨← optionalText? name, ← listOf? FunctionSpec.ofSource? functions,
      ← listOf? (RuleSpec.ofSource? 2) entryRules, ← listOf? (RuleSpec.ofSource? 2) exitRules⟩
  | _ => none

/-! ## Writing -/

/-- The entry of a field that is there. -/
def entry (name : String) (value : Option Json) : List (String × Json) :=
  match value with
  | some x => [(name, x)]
  | none => []

def FunctionSpec.toJson (f : FunctionSpec) : Json :=
  .object (entry "id" (f.id.map .text) ++ entry "name" (f.name.map .text) ++
    entry "expression" (f.expression.map .text))

def ConditionSpec.toJson (c : ConditionSpec) : Json :=
  .object (entry "function_id" (c.functionId.map .text) ++
    entry "operator" (c.operator.map .text) ++ entry "threshold" c.threshold)

def RuleSpec.toJson (r : RuleSpec) : Json :=
  .object (("conditions", .array (r.conditions.map (·.toJson))) ::
    entry "logic" (r.logic.map .text) ++ entry "action" (r.action.map .text))

def Spec.toJson (s : Spec) : Json :=
  .object (entry "name" (s.name.map .text) ++
    [("functions", .array (s.functions.map (·.toJson))),
      ("entry_rules", .array (s.entryRules.map (·.toJson))),
      ("exit_rules", .array (s.exitRules.map (·.toJson)))])

end TickBacktest.Strategy
