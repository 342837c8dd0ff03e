import TickBacktest.Backtest.Position
import TickBacktest.Market.Tick

/-! # Returns

The return of the price in each period, and that of a strategy: the position held into a period
earns the price return of the period, and every unit traded costs a fraction of a unit, charged in
the period of the trade. What is traded at the first tick, before any period, is charged in the
first one. -/

namespace TickBacktest.Backtest

open Market (priceChange)

variable {α : Type} [Scalar α]

/-- The relative change of the price to each tick from the one before it; zero at the first. -/
def priceReturns (mids : List α) : List α :=
  List.zipWith priceChange (none :: mids.map some) mids

/-- The returns of the periods with the price returns `prices`. `held` goes into the first of them,
the positions that follow are those at the end of each, and `uncharged` units are still to be paid
for. Periods past the last position return nothing. -/
def returnsFrom (cost : α) : Nat → List α → Position → List Position → List α
  | _, [], _, _ => []
  | _, _ :: prices, held, [] => 0 :: returnsFrom cost 0 prices held []
  | uncharged, p :: prices, held, next :: later =>
    let traded := uncharged + (held.delta next).natAbs
    (held.exposure * p - (traded : α) * cost) :: returnsFrom cost 0 prices next later

/-- The return of the strategy at each tick. -/
def strategyReturns (mids : List α) (positions : List Position) (cost : α) : List α :=
  match priceReturns mids, positions with
  | [], _ => []
  | _ :: prices, [] => 0 :: returnsFrom cost 0 prices .flat []
  | _ :: prices, first :: later => 0 :: returnsFrom cost first.units.natAbs prices first later

/-- The growth of one unit over the returns, starting from `g`. -/
def growthFrom (g : α) : List α → List α
  | [] => []
  | r :: rs => g * (1 + r) :: growthFrom (g * (1 + r)) rs

/-- The growth of one unit at the end of each period. -/
def growthCurve (returns : List α) : List α := growthFrom 1 returns

/-- The growth in percent. -/
def cumulativeReturns (returns : List α) : List α :=
  (growthCurve returns).map fun g => (g - 1) * 100

/-- The drawdowns after a curve has reached the peak `peak`, if it had a value at all. -/
def drawdownsFrom (peak : Option α) : List α → List α
  | [] => []
  | g :: gs =>
    let peak := Scalar.bound (fun x y => y < x) peak g
    let d := match peak with
      | some p => if 0 < p then (g - p) / p else 0
      | none => 0
    d :: drawdownsFrom peak gs

/-- How far each value of a curve lies below the highest one so far, as a part of it: zero or
negative. -/
def drawdowns (growth : List α) : List α := drawdownsFrom none growth

end TickBacktest.Backtest
