import TickBacktest.Expression.Whitelist

/-! # Data requirements

How much data an expression needs, estimated from its text: the largest window that one of its calls
is given as a number, or has by default, and some ticks to warm up. -/

namespace TickBacktest.Expression

open Indicator (Function)
open Market (Variable)

/-- The ticks to warm up, on top of the largest window. -/
def warmUp : Nat := 10

/-- What an expression needs. Variables and functions stand in the order of their lists. -/
structure Requirements where
  minDataPoints : Nat
  maxWindow : Nat
  usedVariables : List Variable
  usedFunctions : List Function
  deriving Repr

/-- The window that a node stands for, if it is a number of at least one. -/
def literalWindow? : Node → Option Nat
  | .number x => if x.isFinite ∧ 1 ≤ x then some x.toUInt64.toNat else none
  | _ => none

/-- The window of a call, or none if it can only be known at a tick. -/
def callWindow? (f : Function) (args : List Node) (keywords : List (String × Node)) :
    Option Nat :=
  if f.isWindowed then
    let keyword := (keywords.find? (·.1 = "window")).map (·.2)
    match keyword.or ((f.windowIndex args.length).bind (args[·]?)) with
    | some n => literalWindow? n
    | none => f.defaultWindow
  else none

/-- The function that a node calls, and the window of the call. -/
def calledFunction? : Node → Option (Function × Option Nat)
  | .call (.name s) args keywords =>
    (Function.ofName? s).map fun f => (f, callWindow? f args keywords)
  | _ => none

/-- The variable that a node names. -/
def variableNamed? : Node → Option Variable
  | .name s => Variable.ofName? s
  | _ => none

/-- The requirements of using variables and functions, and these windows. -/
def Requirements.of (windows : List Nat) (vs : List Variable) (fs : List Function) :
    Requirements :=
  let maxWindow := windows.foldl max 0
  { minDataPoints := min (maxWindow + warmUp) Decimal.maxSize
    maxWindow := maxWindow
    usedVariables := Variable.all.filter (· ∈ vs)
    usedFunctions := Function.all.filter (· ∈ fs) }

/-- The requirements of a text. A text that is no expression needs nothing. -/
def requirements (text : String) : Requirements :=
  match parse text with
  | .error _ => .of [] [] []
  | .ok node =>
    let calls := node.nodes.filterMap calledFunction?
    .of (calls.filterMap (·.2)) (node.nodes.filterMap variableNamed?) (calls.map (·.1))

end TickBacktest.Expression
