import TickBacktest.Market.Variable

/-! # Values and histories

What an expression reads: the current value of each variable, and the past values of each variable
that has a series. -/

namespace TickBacktest.Market

/-- The current value of each variable. -/
structure Values (α : Type) where
  mid : α
  spread : α
  bestBid : α
  bestAsk : α
  volume : α
  returns : α
  deriving Repr

/-- The current value of a variable. -/
def Values.get {α : Type} (vs : Values α) : Variable → α
  | .mid => vs.mid
  | .spread => vs.spread
  | .bestBid => vs.bestBid
  | .bestAsk => vs.bestAsk
  | .volume => vs.volume
  | .returns => vs.returns

/-- Combines what two records hold for each variable. -/
def Values.zipWith {α β γ : Type} (f : α → β → γ) (xs : Values α) (ys : Values β) : Values γ :=
  { mid := f xs.mid ys.mid
    spread := f xs.spread ys.spread
    bestBid := f xs.bestBid ys.bestBid
    bestAsk := f xs.bestAsk ys.bestAsk
    volume := f xs.volume ys.volume
    returns := f xs.returns ys.returns }

@[simp] theorem Values.get_zipWith {α β γ : Type} (f : α → β → γ) (xs : Values α) (ys : Values β)
    (v : Variable) : (Values.zipWith f xs ys).get v = f (xs.get v) (ys.get v) := by
  cases v <;> rfl

/-- The past values of each variable that has a series, oldest first. -/
abbrev History (α : Type) := Variable → Option (List α)

end TickBacktest.Market
