import TickBacktest.Expression.Operator

/-! # Strategies

A strategy names some functions of the market, each an expression, and has two lists of rules over
their values: entry rules are tried at every tick, exit rules when a position is held and no entry
rule fires. -/

namespace TickBacktest.Strategy

open Expression (Comparison)

/-- How the conditions of a rule are combined. -/
inductive Logic where
  | and
  | or
  deriving DecidableEq, Repr

def Logic.name : Logic → String
  | and => "AND"
  | or => "OR"

/-- The logic of a name, if there is one. -/
def Logic.ofName? (s : String) : Option Logic := [Logic.and, Logic.or].find? (·.name = s)

/-- What a rule does when it fires. -/
inductive Action where
  | buy
  | sell
  | flat
  | hold
  deriving DecidableEq, Repr

namespace Action

def all : List Action := [buy, sell, flat, hold]

def name : Action → String
  | buy => "BUY"
  | sell => "SELL"
  | flat => "FLAT"
  | hold => "HOLD"

/-- The action of a name, if there is one. -/
def ofName? (s : String) : Option Action := all.find? (·.name = s)

/-- The target position of an action; to hold keeps the position. -/
def target : Action → Option Int
  | buy => some 1
  | sell => some (-1)
  | flat => some 0
  | hold => none

end Action

/-- A named function of the market. -/
structure FunctionDefinition where
  id : String
  name : String
  expression : String
  deriving DecidableEq, Repr

/-- A condition on the value of a function. -/
structure Condition where
  functionId : String
  operator : Comparison
  threshold : Float

/-- Values closer than this count as equal in a condition. -/
def tolerance : Float := 1e-9

/-- A condition is met by a value that is there and compares so. -/
def Condition.isMet (c : Condition) (value : Option Float) : Bool :=
  match value with
  | some x => c.operator.holdsWithin tolerance x c.threshold
  | none => false

/-- Conditions and what to do when they are met. -/
structure Rule where
  conditions : List Condition
  logic : Logic
  action : Action

/-- Whether a rule fires, given the values of the functions. A rule without conditions never
does. -/
def Rule.fires (r : Rule) (value : String → Option Float) : Bool :=
  match r.conditions, r.logic with
  | [], _ => false
  | cs, .and => cs.all fun c => c.isMet (value c.functionId)
  | cs, .or => cs.any fun c => c.isMet (value c.functionId)

/-- A strategy. -/
structure Definition where
  name : String
  functions : List FunctionDefinition
  entryRules : List Rule
  exitRules : List Rule

end TickBacktest.Strategy
