/-! # Indicator functions

The closed set of functions that an expression may call, and their parameters. Four of them are
functions of a number; the others read the last values of a series, as many as their window says.
Of these, the *soft* ones have no value when the series is too short, and the others fail. -/

namespace TickBacktest.Indicator

/-- An indicator function. -/
inductive Function where
  | sma
  | ema
  | std
  | min
  | max
  | abs
  | sqrt
  | exp
  | log
  | momentum
  | percentile
  | sum
  | mean
  | rsi
  | atr
  | bbwidth
  deriving DecidableEq, Repr

/-- A parameter: a series that is named, or a number, with the default it has when it may be left
out. -/
structure Parameter where
  name : String
  default : Option Float
  series : Bool
  deriving Repr

namespace Function

/-- The functions in the order in which they are listed. -/
def all : List Function :=
  [sma, ema, std, min, max, abs, sqrt, exp, log, momentum, percentile, sum, mean, rsi, atr, bbwidth]

def name : Function → String
  | sma => "SMA"
  | ema => "EMA"
  | std => "STD"
  | min => "MIN"
  | max => "MAX"
  | abs => "ABS"
  | sqrt => "SQRT"
  | exp => "EXP"
  | log => "LOG"
  | momentum => "MOMENTUM"
  | percentile => "PERCENTILE"
  | sum => "SUM"
  | mean => "MEAN"
  | rsi => "RSI"
  | atr => "ATR"
  | bbwidth => "BBWIDTH"

/-- The function of a name, if there is one. -/
def ofName? (s : String) : Option Function := all.find? (·.name = s)

/-- Functions of a number. -/
def isScalar : Function → Bool
  | abs | sqrt | exp | log => true
  | _ => false

/-- Functions of the last values of a series. -/
def isWindowed (f : Function) : Bool := !f.isScalar

/-- Functions without a value, rather than failing, on a short series. -/
def isSoft : Function → Bool
  | ema | momentum | atr => true
  | _ => false

/-- A parameter that names a series. -/
def seriesParameter (name : String) : Parameter := ⟨name, none, true⟩

/-- A number that must be given. -/
def requiredParameter (name : String) : Parameter := ⟨name, none, false⟩

/-- A number with a default. -/
def optionalParameter (name : String) (value : Float) : Parameter := ⟨name, some value, false⟩

/-- The parameters of a call with so many positional arguments. Only the range of quotes has two
forms: three series and a window when at least three arguments are given. -/
def parameters (f : Function) (positional : Nat) : List Parameter :=
  match f with
  | abs | sqrt | exp | log => [requiredParameter "x"]
  | percentile => [seriesParameter "data", requiredParameter "window", requiredParameter "pct"]
  | rsi => [seriesParameter "data", optionalParameter "window" 14]
  | bbwidth =>
    [seriesParameter "data", optionalParameter "window" 20, optionalParameter "num_std" 2]
  | atr =>
    if 3 ≤ positional then
      [seriesParameter "high", seriesParameter "low", seriesParameter "close",
        optionalParameter "window" 14]
    else [seriesParameter "data", optionalParameter "window" 14]
  | sma | ema | std | min | max | momentum | sum | mean =>
    [seriesParameter "data", requiredParameter "window"]

/-- The place of the window among the parameters. -/
def windowIndex (f : Function) (positional : Nat) : Option Nat :=
  (f.parameters positional).findIdx? (·.name = "window")

/-- The window of a call that gives none. -/
def defaultWindow : Function → Option Nat
  | rsi | atr => some 14
  | bbwidth => some 20
  | _ => none

theorem mem_all (f : Function) : f ∈ all := by cases f <;> decide

theorem ofName?_name (f : Function) : ofName? f.name = some f := by cases f <;> decide

theorem ofName?_eq_some_iff {s : String} {f : Function} : ofName? s = some f ↔ s = f.name := by
  refine ⟨fun h => ?_, fun h => h ▸ ofName?_name f⟩
  unfold ofName? at h
  have hname := List.find?_some h
  exact (of_decide_eq_true hname).symm

end Function

end TickBacktest.Indicator
