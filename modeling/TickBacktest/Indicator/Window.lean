import TickBacktest.Fault
import TickBacktest.Scalar

/-! # Statistics of a window

The mean, sum, extremes, deviation, quantiles and band width of the last values of a series. A
series with fewer values than the window has no such statistic. -/

namespace TickBacktest.Indicator

open Scalar

variable {α : Type} [Scalar α]

/-- The last `window` values of a series. -/
def trailing (xs : List α) (window : Nat) : Except Fault (List α) :=
  if xs.length < window then .error (.insufficientData window xs.length)
  else .ok (xs.drop (xs.length - window))

/-- The mean, taken as an offset from the first value, so that equal values have exactly that value
as their mean. Zero for no values. -/
def mean (xs : List α) : α :=
  match xs with
  | [] => 0
  | anchor :: _ => anchor + Scalar.sum (xs.map (· - anchor)) / (xs.length : α)

/-- The square root of the mean squared distance from the mean. Zero for no values. -/
def deviation (xs : List α) : α :=
  match xs with
  | [] => 0
  | _ :: _ =>
    let m := mean xs
    Scalar.sqrt (Scalar.sum (xs.map fun x => (x - m) * (x - m)) / (xs.length : α))

/-- The mean of the window. -/
def movingAverage (xs : List α) (window : Nat) : Except Fault α := do
  return mean (← trailing xs window)

/-- The sum of the window. -/
def movingSum (xs : List α) (window : Nat) : Except Fault α := do
  return Scalar.sum (← trailing xs window)

/-- The least value of the window. -/
def lowest (xs : List α) (window : Nat) : Except Fault α := do
  return (least? (← trailing xs window)).getD infinity

/-- The greatest value of the window. -/
def highest (xs : List α) (window : Nat) : Except Fault α := do
  return (greatest? (← trailing xs window)).getD (-infinity)

/-- The deviation of the window. -/
def movingDeviation (xs : List α) (window : Nat) : Except Fault α := do
  return deviation (← trailing xs window)

/-- The quantile of sorted values at a fraction, on the line between the two nearest ranks. -/
def quantile (sorted : List α) (fraction : α) : α :=
  let rank := fraction * ((sorted.length - 1 : Nat) : α)
  let lower := sorted.getD (floor rank) 0
  let upper := sorted.getD (ceil rank) 0
  lower + (rank - (floor rank : α)) * (upper - lower)

/-- The quantile of the window at a fraction. -/
def percentile (xs : List α) (window : Nat) (fraction : α) : Except Fault α := do
  return quantile ((← trailing xs window).mergeSort inOrder) fraction

/-- The distance of the bands `spans` deviations above and below the mean, as a part of the mean. -/
def bandWidth (xs : List α) (window : Nat) (spans : α) : Except Fault α := do
  let w ← trailing xs window
  let middle := mean w
  if middle == 0 then .error (.arithmetic .zeroAverage)
  else
    let upper := middle + spans * deviation w
    let lower := middle - spans * deviation w
    return (upper - lower) / middle

end TickBacktest.Indicator
