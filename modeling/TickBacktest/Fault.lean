import TickBacktest.Decimal.Plain
import TickBacktest.Indicator.Function
import TickBacktest.Market.Variable

/-! # Faults of a calculation

Why an expression that has been accepted has no value at a tick: a function is called in a way that
its parameters do not allow, a series is too short, or the arithmetic has no answer. -/

namespace TickBacktest

open Indicator Market

/-- A call that does not fit the parameters of the function. -/
inductive Misuse where
  | tooManyArguments (f : Function) (limit given : Nat)
  | unexpectedKeyword (f : Function) (keyword : String)
  | repeatedArgument (f : Function) (keyword : String)
  | missingArgument (f : Function) (parameter : String)
  | numberExpected (f : Function) (parameter : String) (given : Variable)
  | seriesExpected (f : Function) (parameter : String)
  | badWindow (f : Function) (given : Float)
  | badFraction (given : Float)
  | notForSeries (f : Function)
  | floorDivision

def Misuse.message : Misuse → String
  | tooManyArguments f limit given =>
    s!"{f.name}() takes at most {limit} arguments ({given} given)"
  | unexpectedKeyword f keyword =>
    s!"{f.name}() got an unexpected keyword argument '{keyword}'"
  | repeatedArgument f keyword => s!"{f.name}() got multiple values for argument '{keyword}'"
  | missingArgument f parameter => s!"{f.name}() missing required argument '{parameter}'"
  | numberExpected f parameter given =>
    s!"{f.name}() argument '{parameter}' must be a number, got variable '{given.name}'"
  | seriesExpected f parameter => s!"{f.name}() expects a variable name for '{parameter}'"
  | badWindow f given =>
    s!"{f.name}() window must be a positive integer, got {Decimal.plain given}"
  | badFraction given =>
    s!"PERCENTILE() pct must be between 0 and 1, got {Decimal.plain given}"
  | notForSeries f => s!"{f.name}() cannot be applied to a series"
  | floorDivision => "Operation '//' not allowed"

/-- Arithmetic without an answer. -/
inductive Arithmetic where
  | divisionByZero
  | overflow
  | zeroBase
  | zeroAverage
  deriving DecidableEq, Repr

def Arithmetic.message : Arithmetic → String
  | divisionByZero => "Division by zero in expression"
  | overflow => "Numeric overflow in expression"
  | zeroBase => "MOMENTUM: base value is zero"
  | zeroAverage => "BBWIDTH: moving average is zero"

/-- Why a calculation has no result. -/
inductive Fault where
  | misuse (m : Misuse)
  | insufficientData (needed available : Nat)
  | arithmetic (a : Arithmetic)

def Fault.message : Fault → String
  | misuse m => s!"invalid expression: {m.message}"
  | insufficientData needed available =>
    s!"insufficient data: need {needed} points, but only {available} available"
  | arithmetic a => s!"numeric error: {a.message}"

end TickBacktest
