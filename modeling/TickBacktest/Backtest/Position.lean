import TickBacktest.Scalar

/-! # Positions

A strategy is short one unit, flat, or long one unit. -/

namespace TickBacktest.Backtest

/-- What is held. -/
inductive Position where
  | short
  | flat
  | long
  deriving DecidableEq, Repr

namespace Position

/-- The position that a target asks for: its sign. -/
def ofTarget (target : Int) : Position :=
  if target < 0 then short else if target = 0 then flat else long

/-- The number of units held, negative when short. -/
def units : Position → Int
  | short => -1
  | flat => 0
  | long => 1

/-- The units held as a factor of the price. -/
def exposure {α : Type} [Scalar α] : Position → α
  | short => -1
  | flat => 0
  | long => 1

/-- The units to trade to get from one position to the next. -/
def delta (held next : Position) : Int := next.units - held.units

theorem ofTarget_units (p : Position) : ofTarget p.units = p := by cases p <;> rfl

end Position

end TickBacktest.Backtest
