import TickBacktest.Proofs.CommandLine.Loading

/-! # The parts of a backtest

The session of a backtest loads the configuration, chooses the transaction cost, loads the strategy
and the market, and then makes the run and its report (`backtest_eq`). What is loaded
`Proofs.CommandLine.Loading` says without a session; here this is said of the cost (`costInRange?`,
`chooseCost_obtains`). The rest of the session, `conclude`, depends on what has been loaded only
(`Loaded`). -/

namespace TickBacktest.CommandLine

open Config (RunConfig)
open Market (Tick)
open Strategy (Definition)

/-! ## The transaction cost -/

/-- The transaction cost of a run: that of the configuration, or the one that is asked for, if it
lies in `[0, 1)`. -/
def costInRange? (asked : Option Float) (c : RunConfig) : Option Float :=
  match asked with
  | none => some c.backtest.transactionCost
  | some cost => if 0 ≤ cost ∧ cost < 1 then some cost else none

/-- What a run needs. -/
structure Loaded where
  config : RunConfig
  definition : Definition
  ticks : List (Tick Float)

namespace Loaded

/-- The configuration with a transaction cost, and the rest. -/
def withCost (c : RunConfig) (cost : Float) (d : Definition) (ticks : List (Tick Float)) : Loaded :=
  ⟨{ c with backtest := { c.backtest with transactionCost := cost } }, d, ticks⟩

/-- The run. -/
def run (l : Loaded) : Except Strategy.RunError Strategy.Run :=
  Strategy.run l.ticks l.definition l.config.backtest

/-- The report on a run, with the benchmark. -/
def report (l : Loaded) (now : String) (run : Strategy.Run) : String :=
  Report.render now l.config.maxTrades run (Backtest.buyAndHold l.ticks).toOption

end Loaded

end TickBacktest.CommandLine
