import TickBacktest.Expression.Requirements
import TickBacktest.Strategy.Definition
import TickBacktest.Strategy.Spec

/-! # Pre-flight

The check of a strategy before it is run. Defects make it unusable, warnings do not. All of them are
listed in one pass, functions first, then entry rules, then exit rules; only a function without an
id or without an expression is not looked at any further. A strategy without defects becomes a
definition. -/

namespace TickBacktest.Strategy

open Expression (Comparison Rejection Suggestion Requirements)

/-- Which of the two lists of rules. -/
inductive RuleList where
  | entry
  | exit
  deriving DecidableEq, Repr

def RuleList.name : RuleList → String
  | entry => "Entry"
  | exit => "Exit"

/-- A rule by its list and its place in it, from 1. -/
structure RulePlace where
  list : RuleList
  number : Nat
  deriving DecidableEq, Repr

def RulePlace.label (p : RulePlace) : String := s!"{p.list.name} rule {p.number}"

/-- What makes a strategy unusable. Functions go by their label, conditions by their place in the
rule, from 1. -/
inductive Defect where
  | noFunctions
  | missingId (label : String)
  | duplicateId (id : String)
  | missingExpression (label : String)
  | rejected (label : String) (r : Rejection)
  | noConditions (rule : RulePlace)
  | missingFunctionId (rule : RulePlace) (condition : Nat)
  | unknownFunction (rule : RulePlace) (condition : Nat) (id : String)
  | missingOperator (rule : RulePlace) (condition : Nat)
  | invalidOperator (rule : RulePlace) (condition : Nat) (operator : String)
  | missingThreshold (rule : RulePlace) (condition : Nat)
  | thresholdNotNumber (rule : RulePlace) (condition : Nat)
  | invalidLogic (rule : RulePlace) (logic : String)
  | missingAction (rule : RulePlace)
  | invalidAction (rule : RulePlace) (action : String)
  | notConvertible (rule : RulePlace)

/-- The label of a condition. -/
def conditionLabel (rule : RulePlace) (condition : Nat) : String :=
  s!"{rule.label}, condition {condition}"

def Defect.message : Defect → String
  | noFunctions => "Strategy must define at least one function"
  | missingId label => s!"Function '{label}' missing 'id' field"
  | duplicateId id => s!"Duplicate function id: '{id}'"
  | missingExpression label => s!"Function '{label}' missing 'expression' field"
  | rejected label r => s!"Function '{label}': {r.refusal.message}"
  | noConditions rule => s!"{rule.label}: must have at least one condition"
  | missingFunctionId rule i => s!"{conditionLabel rule i}: missing 'function_id'"
  | unknownFunction rule i id =>
    s!"{conditionLabel rule i}: references unknown function '{id}'"
  | missingOperator rule i => s!"{conditionLabel rule i}: missing 'operator'"
  | invalidOperator rule i operator =>
    let symbols := Text.join ", " (Comparison.all.map (·.symbol))
    s!"{conditionLabel rule i}: invalid operator '{operator}'. Must be one of: {symbols}"
  | missingThreshold rule i => s!"{conditionLabel rule i}: missing 'threshold'"
  | thresholdNotNumber rule i => s!"{conditionLabel rule i}: threshold must be a number"
  | invalidLogic rule logic => s!"{rule.label}: logic must be 'AND' or 'OR', got '{logic}'"
  | missingAction rule => s!"{rule.label}: missing 'action'"
  | invalidAction rule action =>
    let names := Text.join ", " (Action.all.map (·.name))
    s!"{rule.label}: invalid action '{action}'. Must be one of: {names}"
  | notConvertible rule => s!"{rule.label}: could not be converted"

/-- What is unusual about a strategy. -/
inductive Warning where
  | noName
  | suggestion (label : String) (s : Suggestion)
  | noEntryRules
  | noExitRules
  | flatEntry
  | tradingExit

def Warning.message : Warning → String
  | noName => "Strategy has no name"
  | suggestion label s => s!"Function '{label}': {s.message}"
  | noEntryRules => "Strategy has no entry rules - will never enter positions"
  | noExitRules => "Strategy has no exit rules - positions may not close properly"
  | flatEntry => "Entry rule with action 'FLAT' is unusual"
  | tradingExit => "Exit rule with 'BUY' or 'SELL' action is unusual - consider using 'FLAT'"

/-! ## Functions -/

/-- A text that is there and not empty. -/
def present (s : Option String) : Option String := s.filter fun t => !t.isEmpty

/-- The label of the function at a place, counted from zero. -/
def functionLabel (f : FunctionSpec) (index : Nat) : String :=
  (present f.name).getD s!"Function {index + 1}"

/-- The defects of a function that follows functions with the ids `seen`. -/
def functionDefects (seen : List String) (label : String) (f : FunctionSpec) : List Defect :=
  match present f.id with
  | none => [.missingId label]
  | some id =>
    (if id ∈ seen then [.duplicateId id] else []) ++
      match present f.expression with
      | none => [.missingExpression label]
      | some text =>
        match Expression.accept text with
        | .ok _ => []
        | .error r => [.rejected label r]

/-- The suggestion for a function whose expression is rejected. -/
def functionWarnings (label : String) (f : FunctionSpec) : List Warning :=
  match present f.id, present f.expression with
  | some _, some text =>
    match Expression.accept text with
    | .ok _ => []
    | .error r => (r.suggestion.map (Warning.suggestion label)).toList
  | _, _ => []

/-- The ids that functions define. -/
def definedIds (fs : List FunctionSpec) : List String := fs.filterMap fun f => present f.id

/-- The defects of the functions from a place on, after functions with the ids `seen`. -/
def functionsDefects (seen : List String) (index : Nat) : List FunctionSpec → List Defect
  | [] => []
  | f :: fs =>
    functionDefects seen (functionLabel f index) f ++
      functionsDefects (seen ++ (present f.id).toList) (index + 1) fs

/-! ## Rules -/

/-- The defects of a condition, given the ids of the functions. -/
def conditionDefects (ids : List String) (rule : RulePlace) (i : Nat) (c : ConditionSpec) :
    List Defect :=
  (match present c.functionId with
    | none => [.missingFunctionId rule i]
    | some id => if id ∈ ids then [] else [.unknownFunction rule i id]) ++
  (match present c.operator with
    | none => [.missingOperator rule i]
    | some op => if (Comparison.ofSymbol? op).isSome then [] else [.invalidOperator rule i op]) ++
  (match c.threshold with
    | none | some .null => [.missingThreshold rule i]
    | some (.number _) => []
    | some _ => [.thresholdNotNumber rule i])

/-- The logic that a rule names; rules without one combine with AND. -/
def RuleSpec.logicName (r : RuleSpec) : String := r.logic.getD "AND"

/-- The defects of a rule, given the ids of the functions. -/
def ruleDefects (ids : List String) (rule : RulePlace) (r : RuleSpec) : List Defect :=
  (if r.conditions.isEmpty then [.noConditions rule] else []) ++
  (r.conditions.zipIdx 1).flatMap (fun (c, i) => conditionDefects ids rule i c) ++
  (if (Logic.ofName? r.logicName).isSome then [] else [.invalidLogic rule r.logicName]) ++
  (match present r.action with
    | none => [.missingAction rule]
    | some action =>
      if (Action.ofName? action).isSome then [] else [.invalidAction rule action])

/-- The defects of a list of rules, given the ids of the functions. -/
def rulesDefects (ids : List String) (list : RuleList) (rs : List RuleSpec) : List Defect :=
  (rs.zipIdx 1).flatMap fun (r, i) => ruleDefects ids ⟨list, i⟩ r

/-- Whether one of the rules has an action. -/
def hasAction (rs : List RuleSpec) (a : Action) : Bool := rs.any fun r => r.action = some a.name

/-! ## Strategies -/

namespace Spec

/-- Everything that makes the strategy unusable. -/
def defects (s : Spec) : List Defect :=
  let ids := definedIds s.functions
  (if s.functions.isEmpty then [.noFunctions] else []) ++ functionsDefects [] 0 s.functions ++
    rulesDefects ids .entry s.entryRules ++ rulesDefects ids .exit s.exitRules

/-- Everything that is unusual about the strategy. -/
def warnings (s : Spec) : List Warning :=
  (if (Text.trim (s.name.getD "")).isEmpty then [.noName] else []) ++
  s.functions.zipIdx.flatMap (fun (f, i) => functionWarnings (functionLabel f i) f) ++
  (if s.entryRules.isEmpty then [.noEntryRules] else []) ++
  (if s.exitRules.isEmpty then [.noExitRules] else []) ++
  (if s.entryRules.isEmpty || s.exitRules.isEmpty then []
    else
      (if hasAction s.entryRules .flat then [.flatEntry] else []) ++
      (if hasAction s.exitRules .buy || hasAction s.exitRules .sell then [.tradingExit] else []))

/-- The name of the strategy, or what a strategy without one is called. -/
def displayName (s : Spec) : String := (present s.name).getD "Unnamed Strategy"

end Spec

/-! ## Definitions -/

/-- The condition that is authored, if all of it is there. -/
def ConditionSpec.condition? (c : ConditionSpec) : Option Condition := do
  match ← c.threshold with
  | .number n =>
    return ⟨← c.functionId, ← Comparison.ofSymbol? (← c.operator), n.toFloat⟩
  | _ => none

/-- The rule that is authored, if all of it is there. -/
def RuleSpec.rule? (r : RuleSpec) : Option Rule := do
  return ⟨← r.conditions.mapM (·.condition?), ← Logic.ofName? r.logicName,
    ← Action.ofName? (← r.action)⟩

/-- The rules that are authored, or those that cannot be converted. -/
def rulesOf (list : RuleList) (rs : List RuleSpec) : List Rule × List Defect :=
  (rs.filterMap (·.rule?),
    (rs.zipIdx 1).filterMap fun (r, i) =>
      if r.rule?.isNone then some (.notConvertible ⟨list, i⟩) else none)

/-- The function that is authored. -/
def FunctionSpec.definition (f : FunctionSpec) (index : Nat) : FunctionDefinition :=
  ⟨f.id.getD "", functionLabel f index, f.expression.getD ""⟩

/-- The definition of a strategy without defects. -/
def Spec.build (s : Spec) : Except (List Defect) Definition :=
  match s.defects with
  | d :: ds => .error (d :: ds)
  | [] =>
    let (entryRules, entryProblems) := rulesOf .entry s.entryRules
    let (exitRules, exitProblems) := rulesOf .exit s.exitRules
    match entryProblems ++ exitProblems with
    | d :: ds => .error (d :: ds)
    | [] =>
      .ok
        { name := s.displayName
          functions := s.functions.zipIdx.map fun (f, i) => f.definition i
          entryRules := entryRules
          exitRules := exitRules }

/-- The message for a strategy that has defects. -/
def defectsMessage (ds : List Defect) : String :=
  "invalid strategy definition: " ++ Text.join "; " (ds.map (·.message))

/-! ## Summaries -/

/-- The data that a strategy needs. -/
def Spec.requirements (s : Spec) : Requirements :=
  let parts := (s.functions.filterMap fun f => present f.expression).map Expression.requirements
  .of (parts.map (·.maxWindow)) (parts.flatMap (·.usedVariables))
    (parts.flatMap (·.usedFunctions))

/-- The number of entry rules with an action. -/
def Spec.entryCount (s : Spec) (a : Action) : Nat :=
  s.entryRules.countP fun r => r.action = some a.name

/-- What a strategy does, in a few words. -/
def Spec.description (s : Spec) : String :=
  let parts :=
    (if s.functions.isEmpty then [] else [s!"Uses {s.functions.length} custom indicator(s)"]) ++
    (if s.entryCount .buy = 0 then []
      else [s!"Enters long on {s.entryCount .buy} condition(s)"]) ++
    (if s.entryCount .sell = 0 then []
      else [s!"Enters short on {s.entryCount .sell} condition(s)"]) ++
    (if s.exitRules.isEmpty then [] else [s!"Exits on {s.exitRules.length} condition(s)"])
  Text.join ". " parts ++ "."

/-- A strategy at a glance. -/
structure Summary where
  name : String
  numFunctions : Nat
  numEntryRules : Nat
  numExitRules : Nat
  requirements : Requirements
  description : String

def Spec.summary (s : Spec) : Summary :=
  { name := s.displayName
    numFunctions := s.functions.length
    numEntryRules := s.entryRules.length
    numExitRules := s.exitRules.length
    requirements := s.requirements
    description := s.description }

end TickBacktest.Strategy
