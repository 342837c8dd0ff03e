import TickBacktest.Expression.Formula
import TickBacktest.Indicator.Call

/-! # Evaluation

The value of a formula at a tick. It may be indeterminate (`none`): that is what an indeterminate
operand makes of an operation, and what a result that is not finite counts as. A chain of
comparisons is read from the left and stops at the first link that does not hold. -/

namespace TickBacktest.Expression

open Indicator (Argument)
open Market (Values History)

/-- The remainder with the sign of the divisor. -/
def flooredRemainder (x y : Float) : Float :=
  let r := Decimal.remainder x y
  if r != 0 && (decide (r < 0) != decide (y < 0)) then r + y else r

/-- The value of an arithmetic operation. -/
def operate (op : Operator) (x y : Float) : Except Fault Float :=
  match op with
  | .add => .ok (x + y)
  | .sub => .ok (x - y)
  | .mul => .ok (x * y)
  | .div => if y == 0 then .error (.arithmetic .divisionByZero) else .ok (x / y)
  | .mod => if y == 0 then .error (.arithmetic .divisionByZero) else .ok (flooredRemainder x y)
  | .pow =>
    if x == 0 && y < 0 then .error (.arithmetic .divisionByZero)
    else
      let z := x.pow y
      if z.isInf && x.isFinite && y.isFinite then .error (.arithmetic .overflow) else .ok z
  | .floorDiv => .error (.misuse .floorDivision)

/-- The value of a sign in front of an operand. -/
def signedValue : Sign → Float → Float
  | .minus, x => -x
  | .plus, x => x

mutual

/-- The value of a formula, which need not be finite. -/
def eval (values : Values Float) (history : History Float) :
    Formula → Except Fault (Option Float)
  | .number x => .ok (some x)
  | .current v | .series v => .ok (some (values.get v))
  | .signed sign operand => do return (← eval values history operand).map (signedValue sign)
  | .binary op left right => do
    let x ← eval values history left
    let y ← eval values history right
    match x, y with
    | some x, some y => return some (← operate op x y)
    | _, _ => return none
  | .call f args keywords => do
    let args ← evalArguments values history args
    let keywords ← evalKeywords values history keywords
    Indicator.call f args keywords history
  | .compare first links => do
    match ← eval values history first with
    | none => return none
    | some x => evalLinks values history x links

/-- The arguments of a call: a series goes by name, with its current value. -/
def evalArguments (values : Values Float) (history : History Float) :
    List Formula → Except Fault (List Argument)
  | [] => .ok []
  | .series v :: es => do
    return .series v (values.get v) :: (← evalArguments values history es)
  | e :: es => do
    let x ← eval values history e
    return .scalar x :: (← evalArguments values history es)

def evalKeywords (values : Values Float) (history : History Float) :
    List (String × Formula) → Except Fault (List (String × Argument))
  | [] => .ok []
  | (k, .series v) :: es => do
    return (k, .series v (values.get v)) :: (← evalKeywords values history es)
  | (k, e) :: es => do
    let x ← eval values history e
    return (k, .scalar x) :: (← evalKeywords values history es)

/-- The links of a chain of comparisons after an operand with the value `x`: one when all of them
hold, zero at the first that does not. -/
def evalLinks (values : Values Float) (history : History Float) (x : Float) :
    List (Comparison × Formula) → Except Fault (Option Float)
  | [] => .ok (some 1)
  | (op, e) :: es => do
    match ← eval values history e with
    | none => return none
    | some y => if op.holds x y then evalLinks values history y es else return some 0

end

namespace Compiled

/-- The value of an expression; a result that is not finite is indeterminate. -/
def evaluate (c : Compiled) (values : Values Float) (history : History Float) :
    Except Fault (Option Float) := do
  return (← eval values history c.formula).filter Float.isFinite

end Compiled

/-- Why a text has no value: it is rejected, or its evaluation has a fault. -/
inductive EvalError where
  | rejected (r : Rejection)
  | fault (f : Fault)

def EvalError.message : EvalError → String
  | rejected r => r.message
  | fault f => f.message

/-- Compiles a text and evaluates it. -/
def evaluate (text : String) (values : Values Float) (history : History Float) :
    Except EvalError (Option Float) :=
  match compile text with
  | .error r => .error (.rejected r)
  | .ok c => (c.evaluate values history).mapError .fault

end TickBacktest.Expression
