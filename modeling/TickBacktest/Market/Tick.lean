import TickBacktest.Market.Values
import TickBacktest.Scalar

/-! # Ticks

A tick is one quote of the market: its time, the middle price and the spread, the best prices on
both sides, and a volume. A tick without a middle price or a spread is not valid and is left out of
every run; a missing quote of a valid tick is rebuilt from the two. -/

namespace TickBacktest.Market

open Scalar

/-- One quote of the market. -/
structure Tick (α : Type) where
  time : α
  mid : α
  spread : α
  bestBid : α
  bestAsk : α
  volume : α
  deriving Repr

namespace Tick

variable {α : Type} [Scalar α]

/-- The tick whose quotes lie half a spread around the middle price. -/
def ofMid (time mid spread : α) : Tick α :=
  { time, mid, spread, bestBid := mid - spread / 2, bestAsk := mid + spread / 2, volume := 0 }

/-- A tick with a middle price and a spread. -/
def isValid (t : Tick α) : Bool := !isNaN t.mid && !isNaN t.spread

/-- The tick with its missing quotes rebuilt from the middle price and the spread. -/
def repaired (t : Tick α) : Tick α :=
  { t with
    bestBid := if isNaN t.bestBid then t.mid - t.spread / 2 else t.bestBid
    bestAsk := if isNaN t.bestAsk then t.mid + t.spread / 2 else t.bestAsk
    volume := if isNaN t.volume then 0 else t.volume }

end Tick

variable {α : Type} [Scalar α]

/-- The valid ticks of a series, repaired. -/
def validTicks (ticks : List (Tick α)) : List (Tick α) :=
  (ticks.filter (·.isValid)).map (·.repaired)

/-- The series of some middle prices with one spread, at the times 0, 1, 2, … -/
def ticksOfMids (mids : List α) (spread : α) : List (Tick α) :=
  mids.zipIdx.map fun (mid, i) => .ofMid (i : α) mid spread

/-- The relative change from the previous price; zero if there is none to compare with. -/
def priceChange (previous : Option α) (price : α) : α :=
  match previous with
  | some p => if p != 0 then (price - p) / p else 0
  | none => 0

/-- The values that a tick gives the variables, after a tick with the middle price
`previous`. -/
def Values.ofTick (t : Tick α) (previous : Option α) : Values α :=
  { mid := t.mid
    spread := t.spread
    bestBid := t.bestBid
    bestAsk := t.bestAsk
    volume := t.volume
    returns := priceChange previous t.mid }

end TickBacktest.Market
