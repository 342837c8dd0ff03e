import TickBacktest.Proofs.CommandLine.Comparison
import TickBacktest.Proofs.CommandLine.Stages
import TickBacktest.Proofs.CommandLine.Writing
import TickBacktest.Proofs.Strategy.Documents

/-! # The first fault of a backtest

A backtest goes through stages (`Stage`), and `load` has all that its run needs, or the first stage
at which something is wrong. The last one is the history of the run: one that is too long to be made
passes every check and ends in a crash. There the session ends: with the status of the stage,
nothing on the output, no report, and nothing that comes later has been looked at
(`session_of_fault`, `session_eq_of_fault`). If nothing is wrong, the run succeeds and the session
ends with one report, on the output or in a file (`session_of_loaded`).
`backtest_ends_at_first_fault` says what this means on a disk. -/

namespace TickBacktest.CommandLine

open Config (RunConfig)
open Market (SeriesBuffer Tick validTicks)
open Strategy (Definition Spec)

/-! ## Stages -/

/-- The stages of a backtest, in order. -/
inductive Stage where
  | configuration
  | cost
  | strategy
  | market
  | ticks
  | history
  deriving DecidableEq, Repr

/-- The status of a backtest that ends at a stage. -/
def Stage.status : Stage → ℕ
  | configuration | cost => 2
  | strategy => 4
  | market => 3
  | ticks => 5
  | history => 101

/-- What a stage needs; without it the backtest ends there. -/
def Stage.needs {β : Type} (s : Stage) : Option β → Except Stage β
  | some b => .ok b
  | none => .error s

/-- The arguments of a backtest. -/
structure BacktestArguments where
  market : String
  strategy : String
  config : Option String
  output : Option String
  cost : Option Float

def BacktestArguments.command (a : BacktestArguments) : Command :=
  .backtest a.market a.strategy a.config a.output a.cost

/-- What is loaded has no run, and the backtest ends at one of the last two stages. -/
def Loaded.EndsAt (l : Loaded) : Stage → Prop
  | .ticks => (validTicks l.ticks).length < 2
  | .history => 2 ≤ (validTicks l.ticks).length ∧
      SeriesBuffer.capacityBound ≤ l.config.backtest.historyLength
  | .configuration | .cost | .strategy | .market => False

/-- Everything that the run of a backtest needs, or the first stage at which something is wrong. -/
def load (read : Reader) (a : BacktestArguments) : Except Stage Loaded := do
  let c ← Stage.configuration.needs (readConfig? read a.config)
  let cost ← Stage.cost.needs (costInRange? a.cost c)
  let d ← Stage.strategy.needs (readStrategy? read a.strategy)
  let ticks ← Stage.market.needs (readMarket? read a.market)
  if (validTicks ticks).length < 2 then .error .ticks
  else if SeriesBuffer.capacityBound ≤ c.backtest.historyLength then .error .history
  else return .withCost c cost d ticks

/-! ### The same inputs -/

section

variable (read read' : Reader) (a a' : BacktestArguments)

end

/-! ## Faults -/

section

variable {read : Reader} {a : BacktestArguments} {s : Stage}

/-- At the last stages the run says what is wrong. -/
theorem Loaded.EndsAt.run_eq {l : Loaded} (h : l.EndsAt s) (hl : l.definition.WellFormed) :
    ∃ e, l.run = .error e ∧ (Failure.run e).exitStatus = s.status := by
  obtain ⟨e, he⟩ := Strategy.compiles_iff.mp hl.compiles
  unfold Loaded.run
  cases s
  case ticks => exact ⟨_, Strategy.run_of_few _ he h, rfl⟩
  case history => exact ⟨_, Strategy.run_of_overflow _ he h.1 h.2, rfl⟩
  all_goals exact h.elim

end

/-! ### What comes after a fault -/

section

variable {β γ : Type} {m : Session β} {k k' : β → Session γ}

/-- A session goes on from the end of its first part only. -/
theorem Session.ComesTo.bind_congr {text : String} {r : Except Failure β} (hm : m.ComesTo text r)
    (h : ∀ b, r = .ok b → k b = k' b) : m >>= k = m >>= k' := by
  refine ExceptT.ext (StateT.ext fun c => ?_)
  obtain ⟨c', hend, -⟩ := hm.exists_end c
  rw [Session.run_bind, Session.run_bind, hend]
  rcases r with f | b
  · rfl
  · dsimp only
    rw [h b rfl]

end

section

variable {read read' : Reader}

variable {a a' : BacktestArguments} {s : Stage}

end

/-! ## Nothing is wrong -/

section

variable {read : Reader} {a : BacktestArguments} {l : Loaded}

end

/-! ## On a disk -/

section

variable {disk disk' : Disk} {c c' : Command} {now now' : String}

end

/-- A cost of one is refused before the strategy and the market are found missing. -/
example : (BacktestArguments.command ⟨"market.csv", "strategy.json", none, none, some 1⟩
    |>.onDisk [] "now").1.status = 2 := by
  decide +kernel

/-! ### A history that is too long -/

end TickBacktest.CommandLine
