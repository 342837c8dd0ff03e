import TickBacktest.Decimal.Reading
import TickBacktest.Indicator.Window

/-! # Trend indicators

The exponential average, momentum, relative strength and the range of quotes. Momentum and relative
strength look at changes and need one value more than their window. -/

namespace TickBacktest.Indicator

open Scalar

variable {α : Type} [Scalar α]

/-- The exponential average of the window: it starts at the oldest value, and each later value
counts with the weight `2 / (window + 1)`. -/
def exponentialAverage (xs : List α) (window : Nat) : Option α :=
  if window = 0 ∨ xs.length < window then none
  else
    let weight : α := 2 / ((window : α) + 1)
    match xs.drop (xs.length - window) with
    | [] => none
    | seed :: later => some (later.foldl (fun m x => weight * x + (1 - weight) * m) seed)

/-- The relative change over the window. -/
def momentum (xs : List α) (window : Nat) : Except Fault (Option α) :=
  if xs.length < window + 1 then .ok none
  else
    let w := xs.drop (xs.length - (window + 1))
    match w.head?, w.getLast? with
    | some base, some latest =>
      if base == 0 then .error (.arithmetic .zeroBase) else .ok (some ((latest - base) / base))
    | _, _ => .ok none

/-- The changes from each value to the next. -/
def changes (xs : List α) : List α := List.zipWith (fun x y => y - x) xs xs.tail

/-- The sum of the positive changes, and that of the negative ones with the sign turned. -/
def gainsAndLosses (cs : List α) : α × α :=
  cs.foldl
    (fun (gains, losses) c =>
      if 0 < c then (gains + c, losses) else if c < 0 then (gains, losses - c) else (gains, losses))
    (0, 0)

/-- The number of values that `window` changes need, within the range of sizes. -/
def withLag (window : Nat) : Nat := min (window + 1) Decimal.maxSize

/-- The relative strength: the share of the gains in all changes of the window, in percent; 100 when
there are no losses. -/
def relativeStrength (xs : List α) (window : Nat) : Except Fault α := do
  let (gains, losses) := gainsAndLosses (changes (← trailing xs (withLag window)))
  let gain := gains / (window : α)
  let loss := losses / (window : α)
  if loss == 0 then return 100
  else return 100 - 100 / (1 + gain / loss)

/-- The mean of the last spreads, which stands for the true range where there are only quotes. -/
def averageRange (spreads : List α) (window : Nat) : Option α :=
  if window = 0 ∨ spreads.length < window then none
  else some (Scalar.sum (spreads.drop (spreads.length - window)) / (window : α))

end TickBacktest.Indicator
