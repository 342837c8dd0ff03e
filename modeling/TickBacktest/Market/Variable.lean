/-! # Variables

The closed set of names that an expression may refer to. -/

namespace TickBacktest.Market

/-- A quantity of the market that is known at every tick. -/
inductive Variable where
  | mid
  | spread
  | bestBid
  | bestAsk
  | volume
  | returns
  deriving DecidableEq, Repr

namespace Variable

/-- The variables in the order in which they are listed. -/
def all : List Variable := [mid, spread, bestBid, bestAsk, volume, returns]

def name : Variable → String
  | mid => "mid"
  | spread => "spread"
  | bestBid => "best_bid"
  | bestAsk => "best_ask"
  | volume => "volume"
  | returns => "returns"

/-- The variable of a name, if there is one. -/
def ofName? (s : String) : Option Variable := all.find? (·.name = s)

theorem mem_all (v : Variable) : v ∈ all := by cases v <;> decide

theorem ofName?_name (v : Variable) : ofName? v.name = some v := by cases v <;> decide

theorem ofName?_eq_some_iff {s : String} {v : Variable} : ofName? s = some v ↔ s = v.name := by
  refine ⟨fun h => ?_, fun h => h ▸ ofName?_name v⟩
  unfold ofName? at h
  have hname := List.find?_some h
  exact (of_decide_eq_true hname).symm

end Variable

end TickBacktest.Market
