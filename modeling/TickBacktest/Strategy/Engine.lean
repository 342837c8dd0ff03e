import TickBacktest.Backtest.Run
import TickBacktest.Expression.Evaluation
import TickBacktest.Strategy.Definition

/-! # The rule engine

Every function of a strategy is compiled once and evaluated at every tick. A function that fails at
a tick has no value there, and the failure is counted; a rule then finds its conditions unmet. The
first entry rule that fires decides; if none does and a position is held, the first exit rule that
fires. Otherwise the position is kept. -/

namespace TickBacktest.Strategy

open Backtest (Position Policy)
open Expression (Compiled Rejection)
open Market (Values History Tick)

/-! ## Diagnostics -/

/-- The failures of a function: the message of the first one, and how many there were. -/
structure FailureRecord where
  firstError : String
  failures : Nat
  deriving DecidableEq, Repr

/-- The failures of the functions that failed, in the order of their ids. -/
abbrev Diagnostics := List (String × FailureRecord)

namespace Diagnostics

/-- Counts a failure of a function. -/
def record (id message : String) : Diagnostics → Diagnostics
  | [] => [(id, ⟨message, 1⟩)]
  | (k, r) :: ds =>
    if k = id then (k, { r with failures := r.failures + 1 }) :: ds
    else if id < k then (id, ⟨message, 1⟩) :: (k, r) :: ds
    else (k, r) :: record id message ds

/-- The failures of a function. -/
def get? (ds : Diagnostics) (id : String) : Option FailureRecord :=
  (ds.find? (·.1 = id)).map (·.2)

end Diagnostics

/-! ## The engine -/

/-- A strategy whose functions are compiled. -/
structure Engine where
  name : String
  functions : List (String × Compiled)
  entryRules : List Rule
  exitRules : List Rule

/-- Compiles the functions of a strategy. -/
def Engine.ofDefinition (d : Definition) : Except Rejection Engine := do
  let functions ← d.functions.mapM fun f => do return (f.id, ← Expression.compile f.expression)
  return ⟨d.name, functions, d.entryRules, d.exitRules⟩

/-- The values of the functions at a tick, in order. -/
abbrev FunctionValues := List (String × Option Float)

/-- The value of a function. Where an id is defined twice, the later definition counts. -/
def FunctionValues.value (vs : FunctionValues) (id : String) : Option Float :=
  (vs.reverse.find? (·.1 = id)).bind (·.2)

namespace Engine

/-- The outcome of each function at a tick. -/
def outcomes (e : Engine) (values : Values Float) (history : History Float) :
    List (String × Except Fault (Option Float)) :=
  e.functions.map fun (id, c) => (id, c.evaluate values history)

/-- The value of an outcome; a failure has none. -/
def valueOf : Except Fault (Option Float) → Option Float
  | .ok v => v
  | .error _ => none

/-- Counts an outcome that is a failure. -/
def count (ds : Diagnostics) (outcome : String × Except Fault (Option Float)) : Diagnostics :=
  match outcome with
  | (_, .ok _) => ds
  | (id, .error f) => ds.record id f.message

/-- The values of the functions at a tick, and the failures counted. -/
def evaluate (e : Engine) (values : Values Float) (history : History Float) (ds : Diagnostics) :
    FunctionValues × Diagnostics :=
  let outcomes := e.outcomes values history
  (outcomes.map fun (id, o) => (id, valueOf o), outcomes.foldl count ds)

/-- The action of the first rule that fires. -/
def firstFiring (rules : List Rule) (vs : FunctionValues) : Option Action :=
  (rules.find? (·.fires vs.value)).map (·.action)

/-- The target that the rules ask for. -/
def target (e : Engine) (position : Position) (vs : FunctionValues) : Option Int :=
  match firstFiring e.entryRules vs with
  | some action => action.target
  | none =>
    if position = .flat then none else (firstFiring e.exitRules vs).bind (·.target)

/-- The target at a tick, and the failures counted. -/
def decide (e : Engine) (position : Position) (values : Values Float) (history : History Float)
    (ds : Diagnostics) : Option Int × Diagnostics :=
  let (vs, ds) := e.evaluate values history ds
  (e.target position vs, ds)

/-- The engine as a policy, with the diagnostics as its state. -/
def policy (e : Engine) : Policy Float Diagnostics := fun c ds =>
  e.decide c.position c.current c.history.view ds

end Engine

/-! ## Runs -/

/-- The run of a strategy. -/
structure Run where
  strategy : String
  result : Backtest.Result Float
  diagnostics : Diagnostics

/-- Why a strategy has no run. -/
inductive RunError where
  | rejected (r : Rejection)
  | fault (f : Backtest.RunFault)

def RunError.message : RunError → String
  | rejected r => r.message
  | fault f => f.message

/-- The crash that an outcome stands for, if it does. -/
def crash? : Except RunError Run → Option Market.CapacityOverflow
  | .error (.fault (.capacityOverflow e)) => some e
  | _ => none

/-- Runs a strategy over a series. -/
def run (ticks : List (Tick Float)) (d : Definition) (config : Backtest.Config Float) :
    Except RunError Run := do
  let e ← (Engine.ofDefinition d).mapError .rejected
  let (result, ds) ← (Backtest.run e.policy [] config ticks).mapError .fault
  return ⟨d.name, result, ds⟩

/-- What runs that are made side by side come to: every one has its outcome, in order, unless one of
them crashes, which is the end of all. -/
def together (outcomes : List (Except RunError Run)) :
    Except Market.CapacityOverflow (List (Except RunError Run)) :=
  match outcomes.findSome? crash? with
  | some e => .error e
  | none => .ok outcomes

/-- Runs several strategies over one series. -/
def runAll (ticks : List (Tick Float)) (ds : List Definition) (config : Backtest.Config Float) :
    Except Market.CapacityOverflow (List (Except RunError Run)) :=
  together (ds.map fun d => run ticks d config)

/-- Runs one strategy over several series. -/
def runAcross (series : List (List (Tick Float))) (d : Definition)
    (config : Backtest.Config Float) :
    Except Market.CapacityOverflow (List (Except RunError Run)) :=
  together (series.map fun ticks => run ticks d config)

end TickBacktest.Strategy
