import TickBacktest.Indicator.Trend
import TickBacktest.Market.Values

/-! # Calls

A call binds its arguments to the parameters of the function, positional ones in order and keywords
by name, and then applies the function. The result may be indeterminate (`none`): an argument is, a
soft function has too short a series, or a function of a number is outside its domain. -/

namespace TickBacktest.Indicator

open Market

/-- An argument: a variable that is named, with its current value, or a number that may be
indeterminate. -/
inductive Argument where
  | series (v : Variable) (current : Float)
  | scalar (value : Option Float)
  deriving Repr

/-- The parameters of a call, each with the argument it got. -/
structure Bound where
  function : Function
  slots : List (Parameter × Option Argument)

/-- Gives a keyword argument to the parameter of its name. -/
def giveKeyword (f : Function) (slots : List (Parameter × Option Argument)) (keyword : String)
    (a : Argument) : Except Misuse (List (Parameter × Option Argument)) :=
  match slots.find? (·.1.name = keyword) with
  | none => .error (.unexpectedKeyword f keyword)
  | some (_, some _) => .error (.repeatedArgument f keyword)
  | some (_, none) =>
    .ok (slots.map fun (p, given) => if p.name = keyword then (p, some a) else (p, given))

/-- Binds the arguments of a call. Every parameter without a default must get one. -/
def bind (f : Function) (args : List Argument) (keywords : List (String × Argument)) :
    Except Misuse Bound := do
  let ps := f.parameters args.length
  if ps.length < args.length then .error (.tooManyArguments f ps.length args.length)
  else
    let positional := ps.zip (args.map some ++ List.replicate (ps.length - args.length) none)
    let slots ← keywords.foldlM (fun slots (k, a) => giveKeyword f slots k a) positional
    match slots.find? fun (p, given) => given.isNone && p.default.isNone with
    | some (p, _) => .error (.missingArgument f p.name)
    | none => .ok ⟨f, slots⟩

namespace Bound

/-- The number given to a parameter. To a function of a number a variable gives its current
value. -/
def number (b : Bound) (parameter : String) : Except Misuse (Option Float) :=
  match b.slots.find? (·.1.name = parameter) with
  | none => .ok none
  | some (p, none) => .ok p.default
  | some (_, some (.scalar value)) => .ok value
  | some (p, some (.series v current)) =>
    if b.function.isScalar then .ok (some current)
    else .error (.numberExpected b.function p.name v)

/-- The variable given to the first parameter. -/
def variableNamed (b : Bound) : Except Misuse Variable :=
  match b.slots with
  | (_, some (.series v _)) :: _ => .ok v
  | (p, _) :: _ => .error (.seriesExpected b.function p.name)
  | [] => .error (.seriesExpected b.function "")

end Bound

/-- The value of a function of a number, inside its domain. An exponential of 100 or more counts as
too large. -/
def scalarValue (f : Function) (x : Float) : Option Float :=
  match f with
  | .abs => some x.abs
  | .sqrt => if 0 ≤ x then some x.sqrt else none
  | .exp => if x < 100 then some x.exp else none
  | _ => if 0 < x then some x.log else none

/-- Whether a number from 0 to the largest size is whole: nothing is lost without its fraction. -/
def isWhole (x : Float) : Bool := x.toUInt64.toFloat == x

/-- A window: a whole number from 1 to the largest size. -/
def window? (x : Float) : Option Nat :=
  if 1 ≤ x ∧ isWhole x ∧ x ≤ 18446744073709551616 then some x.toUInt64.toNat else none

/-- The value of a windowed function over the series of the variable that it names. -/
def windowedValue (b : Bound) (window : Nat) (xs : List Float) : Except Fault (Option Float) := do
  match b.function with
  | .sma | .mean => return some (← movingAverage xs window)
  | .sum => return some (← movingSum xs window)
  | .min => return some (← lowest xs window)
  | .max => return some (← highest xs window)
  | .std => return some (← movingDeviation xs window)
  | .ema => return exponentialAverage xs window
  | .momentum => momentum xs window
  | .rsi => return some (← relativeStrength xs window)
  | .percentile =>
    match ← (b.number "pct").mapError .misuse with
    | none => return none
    | some fraction =>
      if 0 ≤ fraction ∧ fraction ≤ 1 then return some (← percentile xs window fraction)
      else .error (.misuse (.badFraction fraction))
  | .bbwidth =>
    match ← (b.number "num_std").mapError .misuse with
    | none => return none
    | some spans => return some (← bandWidth xs window spans)
  | .atr => return averageRange xs window
  | f@.abs | f@.sqrt | f@.exp | f@.log => .error (.misuse (.notForSeries f))

/-- The value of a call whose arguments are bound. The range of quotes reads the spread, whatever
series it is given. A variable without a series has no values at all, which is less than any window
needs. -/
def Bound.value (b : Bound) (history : History Float) : Except Fault (Option Float) := do
  if b.function.isScalar then
    match ← (b.number "x").mapError .misuse with
    | none => return none
    | some x => return scalarValue b.function x
  else
    match ← (b.number "window").mapError .misuse with
    | none => return none
    | some x =>
      match window? x with
      | none => .error (.misuse (.badWindow b.function x))
      | some window =>
        let v ← b.variableNamed.mapError .misuse
        match history (if b.function = .atr then .spread else v) with
        | some xs => windowedValue b window xs
        | none =>
          if b.function.isSoft then return none else .error (.insufficientData window 0)

/-- The value of a call. -/
def call (f : Function) (args : List Argument) (keywords : List (String × Argument))
    (history : History Float) : Except Fault (Option Float) := do
  (← (bind f args keywords).mapError .misuse).value history

end TickBacktest.Indicator
