import TickBacktest.Backtest.Metrics
import TickBacktest.Market.TickHistory

/-! # Runs

A run hands the valid ticks of a series to a policy one by one. The policy sees the values of the
tick, the ticks before it and the position held, and may ask for another position, which is traded
at the quote of the tick: at the ask to hold more, at the bid to hold less.

A policy has a state of its own, which the run threads from tick to tick. What the run records of a
tick is its decision, the positions before and after; ledger, positions and returns are read off the
decisions. -/

namespace TickBacktest.Backtest

open Market

/-- What a run is charged, and how much of the past a policy sees. -/
structure Config (α : Type) where
  transactionCost : α
  historyLength : Nat

/-- What a policy sees at a tick. -/
structure Context (α : Type) where
  index : Nat
  time : α
  current : Values α
  history : TickHistory α
  position : Position

/-- A policy asks for a target position, or keeps the one held with `none`. -/
abbrev Policy (α σ : Type) := Context α → σ → Option Int × σ

/-- A tick and the positions before and after it. -/
structure Decision (α : Type) where
  tick : Tick α
  before : Position
  after : Position

/-- An entry of the ledger. -/
structure Trade (α : Type) where
  time : α
  before : Position
  after : Position
  size : Int
  price : α

/-- The trade that a decision makes, if the position changes. -/
def Decision.trade? {α : Type} (d : Decision α) : Option (Trade α) :=
  if d.before = d.after then none
  else
    let size := d.before.delta d.after
    some
      { time := d.tick.time
        before := d.before
        after := d.after
        size := size
        price := if 0 < size then d.tick.bestAsk else d.tick.bestBid }

/-- A run between two ticks. -/
structure State (α σ : Type) where
  policyState : σ
  history : TickHistory α
  position : Position
  decisions : Array (Decision α)

variable {α σ : Type} [Scalar α]

/-- A run before its first tick, with a history to fill. -/
def State.ofHistory (history : TickHistory α) (policyState : σ) : State α σ :=
  ⟨policyState, history, .flat, #[]⟩

/-- A run before its first tick, once its history is made. A history shows at least one tick. -/
def State.start (config : Config α) (policyState : σ) : State α σ :=
  .ofHistory (.empty (max config.historyLength 1)) policyState

/-- What the policy sees when a tick comes. -/
def State.context (s : State α σ) (tick : Tick α) : Context α :=
  { index := s.decisions.size
    time := tick.time
    current := .ofTick tick s.history.lastMid
    history := s.history
    position := s.position }

/-- The run after a tick. -/
def State.step (policy : Policy α σ) (s : State α σ) (tick : Tick α) : State α σ :=
  let context := s.context tick
  let (target, policyState) := policy context s.policyState
  let after := match target with
    | some t => Position.ofTarget t
    | none => s.position
  { policyState := policyState
    history := s.history.record context.current
    position := after
    decisions := s.decisions.push ⟨tick, s.position, after⟩ }

/-- What a run produced. -/
structure Result (α : Type) where
  times : List α
  mids : List α
  positions : List Position
  trades : List (Trade α)
  returns : List α
  cumulativeReturns : List α
  metrics : Metrics α

/-- The result of decisions at a transaction cost. -/
def Result.ofDecisions (cost : α) (decisions : List (Decision α)) : Result α :=
  let mids := decisions.map (·.tick.mid)
  let positions := decisions.map (·.after)
  let trades := decisions.filterMap (·.trade?)
  let returns := strategyReturns mids positions cost
  { times := decisions.map (·.tick.time)
    mids := mids
    positions := positions
    trades := trades
    returns := returns
    cumulativeReturns := Backtest.cumulativeReturns returns
    metrics := .of returns positions trades.length }

/-- A series with fewer than two valid ticks has no period to return anything in. -/
structure TooFewTicks where
  valid : Nat

def TooFewTicks.message (e : TooFewTicks) : String :=
  s!"degenerate input: {e.valid} valid ticks, need at least 2"

/-- Why a run has no result: an error that it reports, or the crash of the program. -/
inductive RunFault where
  | tooFewTicks (e : TooFewTicks)
  | capacityOverflow (e : CapacityOverflow)

def RunFault.message : RunFault → String
  | tooFewTicks e => e.message
  | capacityOverflow e => e.message

/-- Runs a policy over the valid ticks of a series; its last state is returned too. The history is
made before the first tick. -/
def run (policy : Policy α σ) (policyState : σ) (config : Config α) (ticks : List (Tick α)) :
    Except RunFault (Result α × σ) :=
  let valid := validTicks ticks
  if valid.length < 2 then .error (.tooFewTicks ⟨valid.length⟩)
  else
    match TickHistory.ofCapacity (max config.historyLength 1) with
    | .error e => .error (.capacityOverflow e)
    | .ok history =>
      let last := valid.foldl (State.step policy) (.ofHistory history policyState)
      .ok (.ofDecisions config.transactionCost last.decisions.toList, last.policyState)

/-- The policy that is long at every tick. -/
def alwaysLong : Policy α Unit := fun _ s => (some 1, s)

/-- The benchmark: long from the first tick on, at no cost. -/
def buyAndHold (ticks : List (Tick α)) : Except RunFault (Result α) :=
  (run alwaysLong () ⟨0, 1⟩ ticks).map (·.1)

end TickBacktest.Backtest
