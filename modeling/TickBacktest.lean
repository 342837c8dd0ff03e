import TickBacktest.Expression.Printer
import TickBacktest.Main
import TickBacktest.Proofs.Backtest.Charges
import TickBacktest.Proofs.Backtest.Compounding
import TickBacktest.Proofs.Backtest.Drawdowns
import TickBacktest.Proofs.Backtest.HoldingLong
import TickBacktest.Proofs.Backtest.Ledger
import TickBacktest.Proofs.Backtest.LookBack
import TickBacktest.Proofs.Backtest.Observation
import TickBacktest.Proofs.Backtest.Steering
import TickBacktest.Proofs.Backtest.Streaks
import TickBacktest.Proofs.Backtest.TradeStatistics
import TickBacktest.Proofs.CommandLine.Comparison
import TickBacktest.Proofs.CommandLine.FirstFault
import TickBacktest.Proofs.Expression.Arguments
import TickBacktest.Proofs.Expression.CallWindow
import TickBacktest.Proofs.Expression.Calls
import TickBacktest.Proofs.Expression.Chains
import TickBacktest.Proofs.Expression.Completeness
import TickBacktest.Proofs.Expression.Cursor
import TickBacktest.Proofs.Expression.CursorGrammar
import TickBacktest.Proofs.Expression.CursorTokens
import TickBacktest.Proofs.Expression.Denylist
import TickBacktest.Proofs.Expression.Dependence
import TickBacktest.Proofs.Expression.Estimate
import TickBacktest.Proofs.Expression.Height
import TickBacktest.Proofs.Expression.Indeterminate
import TickBacktest.Proofs.Expression.Parts
import TickBacktest.Proofs.Expression.Printing
import TickBacktest.Proofs.Expression.RoundTrip
import TickBacktest.Proofs.Expression.Sandbox
import TickBacktest.Proofs.Guarded
import TickBacktest.Proofs.Indicator.AbsentSeries
import TickBacktest.Proofs.Indicator.Assignment
import TickBacktest.Proofs.Indicator.Average
import TickBacktest.Proofs.Indicator.Binding
import TickBacktest.Proofs.Indicator.DataNeed
import TickBacktest.Proofs.Indicator.GuardedCall
import TickBacktest.Proofs.Indicator.GuardedWindow
import TickBacktest.Proofs.Indicator.Horizon
import TickBacktest.Proofs.Indicator.Passing
import TickBacktest.Proofs.Indicator.Quantile
import TickBacktest.Proofs.Indicator.Strength
import TickBacktest.Proofs.Indicator.WindowStatistics
import TickBacktest.Proofs.Market.Loaders
import TickBacktest.Proofs.Market.NamedColumns
import TickBacktest.Proofs.Market.SlidingWindow
import TickBacktest.Proofs.Scalar.Doubles
import TickBacktest.Proofs.Scalar.Exact
import TickBacktest.Proofs.Strategy.Documents
import TickBacktest.Proofs.Strategy.Failures
import TickBacktest.Proofs.Strategy.Flaws
import TickBacktest.Proofs.Strategy.HistoryLength
import TickBacktest.Proofs.Strategy.InvalidTicks
import TickBacktest.Proofs.Strategy.Lookahead
import TickBacktest.Proofs.Strategy.NamedFunctions
import TickBacktest.Scalar.Figure
import TickBacktest.Scalar.Rational
