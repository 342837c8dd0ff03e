import TickBacktest.Json.Writer
import TickBacktest.Strategy.Engine
import TickBacktest.Strategy.Preflight

/-! # Reports

The documents that are written about a strategy: the report of a run, with the metrics of holding as
a benchmark and a ledger of limited length, and the outcome of a pre-flight. -/

namespace TickBacktest.Report

open Backtest (Metrics Trade Position)
open Strategy (Diagnostics Spec Summary)

/-- A position as the number of units held. -/
def positionJson (p : Position) : Json := .ofInt p.units

def metricsJson (m : Metrics Float) : Json :=
  .object
    [("total_return_pct", .ofFloat m.totalReturn),
      ("sharpe_ratio", .ofFloat m.sharpeRatio),
      ("max_drawdown", .ofFloat m.maxDrawdown),
      ("num_trades", .ofNat m.numTrades),
      ("win_rate", .ofFloat m.winRate),
      ("time_long_pct", .ofFloat m.timeLong),
      ("time_short_pct", .ofFloat m.timeShort),
      ("time_flat_pct", .ofFloat m.timeFlat),
      ("avg_return_per_period", .ofFloat m.averageReturn),
      ("volatility", .ofFloat m.volatility),
      ("final_position", positionJson m.finalPosition),
      ("sortino_ratio", .ofFloat m.sortinoRatio),
      ("calmar_ratio", .ofFloat m.calmarRatio),
      ("profit_factor", .ofFloat m.profitFactor),
      ("avg_win", .ofFloat m.averageWin),
      ("avg_loss", .ofFloat m.averageLoss),
      ("win_loss_ratio", .ofFloat m.winLossRatio),
      ("max_consecutive_wins", .ofNat m.maxConsecutiveWins),
      ("max_consecutive_losses", .ofNat m.maxConsecutiveLosses),
      ("expectancy", .ofFloat m.expectancy),
      ("ulcer_index", .ofFloat m.ulcerIndex)]

def tradeJson (t : Trade Float) : Json :=
  .object
    [("time", .ofFloat t.time),
      ("position_before", positionJson t.before),
      ("position_after", positionJson t.after),
      ("size", .ofInt t.size),
      ("price", .ofFloat t.price)]

def diagnosticsJson (ds : Diagnostics) : Json :=
  .object (ds.map fun (id, r) =>
    (id, .object [("first_error", .text r.firstError), ("failures", .ofNat r.failures)]))

/-- The report of a run, generated at a time, with at most `maxTrades` trades of the ledger. -/
def runJson (generatedAt : String) (maxTrades : Nat) (run : Strategy.Run)
    (benchmark : Option (Backtest.Result Float)) : Json :=
  let result := run.result
  let shown := result.trades.take maxTrades
  .object
    ([("generated_at", .text generatedAt),
      ("strategy", .text run.strategy),
      ("metrics", metricsJson result.metrics)] ++
    (benchmark.map fun b => ("benchmark", metricsJson b.metrics)).toList ++
    [("times", .array (result.times.map .ofFloat)),
      ("cumulative_returns", .array (result.cumulativeReturns.map .ofFloat)),
      ("positions", .array (result.positions.map positionJson)),
      ("trades", .array (shown.map tradeJson)),
      ("trades_total", .ofNat result.trades.length),
      ("trades_truncated", .bool (shown.length < result.trades.length)),
      ("diagnostics", diagnosticsJson run.diagnostics)])

/-- The report as text. -/
def render (generatedAt : String) (maxTrades : Nat) (run : Strategy.Run)
    (benchmark : Option (Backtest.Result Float)) : String :=
  (runJson generatedAt maxTrades run benchmark).pretty

def requirementsJson (r : Expression.Requirements) : Json :=
  .object
    [("min_data_points", .ofNat r.minDataPoints),
      ("max_window", .ofNat r.maxWindow),
      ("variables_used", .ofTexts (r.usedVariables.map (·.name))),
      ("functions_used", .ofTexts (r.usedFunctions.map (·.name)))]

def summaryJson (s : Summary) : Json :=
  .object
    [("name", .text s.name),
      ("num_functions", .ofNat s.numFunctions),
      ("num_entry_rules", .ofNat s.numEntryRules),
      ("num_exit_rules", .ofNat s.numExitRules),
      ("requirements", requirementsJson s.requirements),
      ("description", .text s.description)]

/-- The outcome of a pre-flight. -/
def preflightJson (s : Spec) : Json :=
  .object
    [("valid", .bool s.defects.isEmpty),
      ("errors", .ofTexts (s.defects.map (·.message))),
      ("warnings", .ofTexts (s.warnings.map (·.message))),
      ("summary", summaryJson s.summary)]

end TickBacktest.Report
