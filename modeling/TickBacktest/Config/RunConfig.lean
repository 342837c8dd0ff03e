import TickBacktest.Backtest.Run
import TickBacktest.Config.Ini

/-! # Run configuration

What a run takes from a configuration: the transaction cost, the length of the history, and how and
where the report is written. A key that is left out has its default; the first bad value is an
error. -/

namespace TickBacktest.Config

/-- The value of a key in a section, if it has one. -/
abbrev Lookup := String → String → Option String

/-- What is wrong with a value. -/
inductive ValueFault where
  | notNumber
  | notCount
  | costRange
  | tooShort
  deriving DecidableEq, Repr

/-- A value that cannot be used. -/
structure ValueError where
  sec : String
  key : String
  fault : ValueFault
  deriving DecidableEq, Repr

def ValueError.reason (e : ValueError) : String :=
  match e.fault with
  | .notNumber => s!"{e.key} must be a number"
  | .notCount => s!"{e.key} must be a non-negative integer"
  | .costRange => s!"{e.key} must be between 0 and 1"
  | .tooShort => s!"{e.key} must be at least 1"

def ValueError.message (e : ValueError) : String :=
  s!"invalid config value [{e.sec}] {e.key}: {e.reason}"

/-- Everything that a run is configured with. -/
structure RunConfig where
  backtest : Backtest.Config Float
  maxTrades : Nat
  output : String

def defaultTransactionCost : Float := 0.0001

def defaultHistoryLength : Nat := 100

def defaultMaxTrades : Nat := 100

def defaultOutput : String := "report.json"

/-- The double that a key is set to. -/
def readDouble (look : Lookup) (sec key : String) (default : Float) : Except ValueError Float :=
  match look sec key with
  | none => .ok default
  | some raw =>
    match Decimal.float? (Text.trimChars raw.toList) with
    | some x => .ok x
    | none => .error ⟨sec, key, .notNumber⟩

/-- The natural number that a key is set to. -/
def readCount (look : Lookup) (sec key : String) (default : Nat) : Except ValueError Nat :=
  match look sec key with
  | none => .ok default
  | some raw =>
    match Decimal.size? (Text.trimChars raw.toList) with
    | some n => .ok n
    | none => .error ⟨sec, key, .notCount⟩

/-- Refuses a transaction cost outside of `[0, 1)`. -/
def checkCost (cost : Float) : Except ValueError Float :=
  if 0 ≤ cost ∧ cost < 1 then .ok cost
  else .error ⟨"backtest", "transaction_cost", .costRange⟩

/-- The run configuration, or the first bad value. -/
def RunConfig.ofLookup (look : Lookup) : Except ValueError RunConfig := do
  let cost ←
    checkCost (← readDouble look "backtest" "transaction_cost" defaultTransactionCost)
  let history ← readCount look "backtest" "history_length" defaultHistoryLength
  if history < 1 then .error ⟨"backtest", "history_length", .tooShort⟩
  else
    let maxTrades ← readCount look "report" "max_trades" defaultMaxTrades
    let output := (look "report" "output").filter fun s => !(Text.trim s).isEmpty
    return ⟨⟨cost, history⟩, maxTrades, output.getD defaultOutput⟩

end TickBacktest.Config
