import TickBacktest.Backtest.Returns
import TickBacktest.Indicator.Window

/-! # Metrics

The performance of a run over its returns. Returns, drawdowns, rates and shares are in percent;
ratios are plain numbers, and zero where they have no meaning. -/

namespace TickBacktest.Backtest

open Indicator (mean deviation)

/-- The performance of a run. -/
structure Metrics (α : Type) where
  totalReturn : α
  sharpeRatio : α
  maxDrawdown : α
  numTrades : Nat
  winRate : α
  timeLong : α
  timeShort : α
  timeFlat : α
  averageReturn : α
  volatility : α
  finalPosition : Position
  sortinoRatio : α
  calmarRatio : α
  profitFactor : α
  averageWin : α
  averageLoss : α
  winLossRatio : α
  maxConsecutiveWins : Nat
  maxConsecutiveLosses : Nat
  expectancy : α
  ulcerIndex : α

variable {α : Type} [Scalar α]

/-- The periods of a year that ratios are scaled to. -/
def periodsPerYear : Nat := 252

/-! ## Streaks -/

/-- Runs of wins and of losses: the longest so far, and those still going on. -/
structure Streaks where
  bestWins : Nat
  bestLosses : Nat
  wins : Nat
  losses : Nat

/-- The streaks after one more return. One that is neither a win nor a loss changes nothing. -/
def Streaks.next (s : Streaks) (r : α) : Streaks :=
  if 0 < r then
    { s with wins := s.wins + 1, losses := 0, bestWins := max s.bestWins (s.wins + 1) }
  else if r < 0 then
    { s with losses := s.losses + 1, wins := 0, bestLosses := max s.bestLosses (s.losses + 1) }
  else s

/-- The streaks of a list of returns. -/
def streaks (returns : List α) : Streaks := returns.foldl Streaks.next ⟨0, 0, 0, 0⟩

/-! ## Parts -/

/-- `x` over `y` when `y` is positive, else zero. -/
def ratioOver (x y : α) : α := if 0 < y then x / y else 0

/-- The part that `n` is of `total`, in percent; zero of nothing. -/
def percentOf (n total : Nat) : α := if total = 0 then 0 else (n : α) / (total : α) * 100

/-- The mean return per unit of deviation, over a year. -/
def annualized (average spread : α) : α :=
  if 0 < spread then average / spread * Scalar.sqrt (periodsPerYear : α) else 0

/-- The root of the mean of the squares; zero of nothing. -/
def rootMeanSquare (xs : List α) : α :=
  match xs with
  | [] => 0
  | _ :: _ => Scalar.sqrt (Scalar.sum (xs.map fun x => x * x) / (xs.length : α))

/-- The lowest of some values and zero. -/
def lowestBelowZero (xs : List α) : α := xs.foldl (fun low x => if x < low then x else low) 0

/-! ## The metrics -/

/-- The metrics of a run with the returns, positions and number of trades given. -/
def Metrics.of (returns : List α) (positions : List Position) (numTrades : Nat) : Metrics α :=
  let growth := growthCurve returns
  let total := match growth.getLast? with
    | some g => g - 1
    | none => 0
  let average := mean returns
  let volatility := deviation returns
  let falls := drawdowns growth
  let worst := lowestBelowZero falls
  let wins := returns.filter fun r => 0 < r
  let losses := returns.filter fun r => r < 0
  let decided := wins.length + losses.length
  let grossProfit := Scalar.sum wins
  let grossLoss := Scalar.abs (Scalar.sum losses)
  let averageWin := mean wins
  let averageLoss := mean losses
  let runs := streaks returns
  let share (p : Position) : α := percentOf (positions.count p) positions.length
  { totalReturn := total * 100
    sharpeRatio := if 1 < returns.length then annualized average volatility else 0
    maxDrawdown := worst * 100
    numTrades := numTrades
    winRate := percentOf wins.length decided
    timeLong := share .long
    timeShort := share .short
    timeFlat := share .flat
    averageReturn := average
    volatility := volatility
    finalPosition := positions.getLast?.getD .flat
    sortinoRatio := annualized average (deviation losses)
    calmarRatio := if worst < 0 then total / Scalar.abs worst else 0
    profitFactor := ratioOver grossProfit grossLoss
    averageWin := averageWin * 100
    averageLoss := averageLoss * 100
    winLossRatio := if averageLoss != 0 then Scalar.abs (averageWin / averageLoss) else 0
    maxConsecutiveWins := runs.bestWins
    maxConsecutiveLosses := runs.bestLosses
    expectancy :=
      (if decided = 0 then 0 else (grossProfit - grossLoss) / (decided : α)) * 100
    ulcerIndex := rootMeanSquare falls * 100 }

end TickBacktest.Backtest
