import TickBacktest.Expression.Whitelist

/-! # Formulas

An accepted expression with its names resolved. A variable that stands alone as a positional
argument of a call names its series; everywhere else it is its current value.

To resolve a tree is a pass of its own, which refuses what is not on the whitelist in its own words;
of a tree that has passed the check it refuses nothing. -/

namespace TickBacktest.Expression

open Indicator (Function)
open Market (Variable)

/-- An expression that can be evaluated. -/
inductive Formula where
  | number (value : Float)
  | current (v : Variable)
  | series (v : Variable)
  | binary (op : Operator) (left right : Formula)
  | signed (sign : Sign) (operand : Formula)
  | call (f : Function) (args : List Formula) (keywords : List (String × Formula))
  | compare (first : Formula) (links : List (Comparison × Formula))

/-- The variable of a name. -/
def variableOf (name : String) : Except Refusal Variable :=
  match Variable.ofName? name with
  | some v => .ok v
  | none => .error (.unresolvedVariable name)

mutual

/-- Resolves the names of a tree. -/
def resolve : Node → Except Refusal Formula
  | .number value => .ok (.number value)
  | .name s => do return .current (← variableOf s)
  | .binary op left right => do return .binary op (← resolve left) (← resolve right)
  | .signed sign operand => do return .signed sign (← resolve operand)
  | .call (.name s) args keywords => do
    match Function.ofName? s with
    | some f => return .call f (← resolveArguments args) (← resolveKeywords keywords)
    | none => .error (.unresolvedFunction s)
  | .call _ _ _ => .error .computedCallee
  | .compare first links => do return .compare (← resolve first) (← resolveLinks links)
  | n@(.text _) | n@(.member _ _) | n@(.subscript _ _) | n@(.list _) => .error (.kind n.kind)

/-- Resolves positional arguments; a bare name among them is a series. -/
def resolveArguments : List Node → Except Refusal (List Formula)
  | [] => .ok []
  | .name s :: ns => do
    let v ← variableOf s
    return .series v :: (← resolveArguments ns)
  | n :: ns => do
    let e ← resolve n
    return e :: (← resolveArguments ns)

def resolveKeywords : List (String × Node) → Except Refusal (List (String × Formula))
  | [] => .ok []
  | (k, n) :: ns => do
    let e ← resolve n
    return (k, e) :: (← resolveKeywords ns)

def resolveLinks : List (Comparison × Node) → Except Refusal (List (Comparison × Formula))
  | [] => .ok []
  | (op, n) :: ns => do
    let e ← resolve n
    return (op, e) :: (← resolveLinks ns)

end

/-- An accepted expression, with the text it was read from. -/
structure Compiled where
  source : String
  formula : Formula

/-- Accepts a text and resolves its names. -/
def compile (text : String) : Except Rejection Compiled :=
  match accept text with
  | .error r => .error r
  | .ok node =>
    match resolve node with
    | .ok formula => .ok ⟨text, formula⟩
    | .error refusal => .error ⟨refusal, none⟩

end TickBacktest.Expression
