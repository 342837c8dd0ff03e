import TickBacktest.Market.Table
import TickBacktest.Proofs.Strategy.Lookahead

/-! # Invalid ticks

A tick without a middle price or a spread leaves no trace in a run, wherever it stands: a series
that is padded with such ticks (`Padded`) has the valid ticks of the series itself
(`Padded.validTicks_eq`), and a run reads a series only through its valid ticks
(`sameRuns_of_validTicks_eq`).

So a series may as well be filtered beforehand. That filtering twice is filtering once
(`validTicks_validTicks`) holds of every number, also of those that are none: a quote that is
rebuilt as no number, as from an infinite price and an infinite spread, is rebuilt from the same two
numbers again. -/

namespace TickBacktest.Market

variable {α : Type} [Scalar α]

/-! ## Padding -/

/-- **The series `padded` is the series `ticks` with invalid ticks put in**, any number of them at
any places. -/
inductive Padded : (ticks padded : List (Tick α)) → Prop where
  | nil : Padded [] []
  | keep (t : Tick α) {ticks padded : List (Tick α)} : Padded ticks padded →
      Padded (t :: ticks) (t :: padded)
  | insert {t : Tick α} {ticks padded : List (Tick α)} : t.isValid = false →
      Padded ticks padded → Padded ticks (t :: padded)

/-- Padding does not change the valid ticks. -/
theorem Padded.validTicks_eq {ticks padded : List (Tick α)} (h : Padded ticks padded) :
    validTicks padded = validTicks ticks := by
  unfold validTicks
  congr 1
  induction h with
  | nil => rfl
  | keep t _ ih => rw [List.filter_cons, List.filter_cons, ih]
  | insert ht _ ih => rw [List.filter_cons_of_neg (by simp [ht]), ih]

/-! ## Filtering twice -/

theorem Tick.isValid_repaired (t : Tick α) : t.repaired.isValid = t.isValid := rfl

/-- A value that is replaced by `y` where it is missing keeps what it is then, also if `y` is
missing too. -/
theorem replaced_twice {β : Type} (isMissing : β → Bool) (x y : β) :
    (if isMissing (if isMissing x then y else x) then y else if isMissing x then y else x) =
      if isMissing x then y else x := by
  by_cases h : isMissing x = true
  · rw [if_pos h, ite_self]
  · rw [if_neg h, if_neg h]

/-- **A repaired tick is repaired to itself.** -/
theorem Tick.repaired_repaired (t : Tick α) : t.repaired.repaired = t.repaired := by
  unfold Tick.repaired
  dsimp only
  congr 1 <;> exact replaced_twice _ _ _

theorem validTicks_validTicks (ticks : List (Tick α)) :
    validTicks (validTicks ticks) = validTicks ticks := by
  have hall : ∀ t ∈ validTicks ticks, t.isValid = true ∧ t.repaired = t := by
    intro t ht
    obtain ⟨u, hu, rfl⟩ := List.mem_map.mp ht
    exact ⟨u.isValid_repaired.trans (List.mem_filter.mp hu).2, u.repaired_repaired⟩
  calc validTicks (validTicks ticks)
      = (validTicks ticks).map (·.repaired) :=
        congrArg (List.map _) (List.filter_eq_self.mpr fun t ht => (hall t ht).1)
    _ = (validTicks ticks).map id := List.map_congr_left fun t ht => (hall t ht).2
    _ = validTicks ticks := List.map_id _

end TickBacktest.Market

namespace TickBacktest.Strategy

open Backtest (Config Policy)
open Market

/-! ## Runs that cannot be told apart -/

/-- **No policy and no strategy can tell two series apart**: in every configuration they have the
same result and the same last state, the same diagnostics, or the same error. -/
structure SameRuns (s t : List (Tick Float)) : Prop where
  policy : ∀ {σ : Type} (policy : Policy Float σ) (p : σ) (config : Config Float),
    Backtest.run policy p config s = Backtest.run policy p config t
  strategy : ∀ (d : Definition) (config : Config Float), run s d config = run t d config

/-- A run reads a series only through its valid ticks. -/
theorem sameRuns_of_validTicks_eq {s t : List (Tick Float)} (h : validTicks s = validTicks t) :
    SameRuns s t := by
  have hpolicy : ∀ {σ : Type} (policy : Policy Float σ) (p : σ) (config : Config Float),
      Backtest.run policy p config s = Backtest.run policy p config t := by
    intro σ policy p config
    unfold Backtest.run
    rw [h]
  refine ⟨hpolicy, fun d config => ?_⟩
  unfold run
  simp only [hpolicy]

/-- **Invalid ticks leave no trace.** A padded series cannot be told from the series itself, and
neither can the filtered one, since filtering it again changes nothing. -/
theorem invalid_ticks_leave_no_trace {ticks padded : List (Tick Float)} (h : Padded ticks padded) :
    SameRuns padded ticks ∧ validTicks (validTicks ticks) = validTicks ticks ∧
      SameRuns (validTicks ticks) ticks :=
  ⟨sameRuns_of_validTicks_eq h.validTicks_eq, validTicks_validTicks ticks,
    sameRuns_of_validTicks_eq (validTicks_validTicks ticks)⟩

/-- Three ticks, the first of them with infinite quotes of which the bid is missing. -/
def infiniteQuotes : List (Tick Float) :=
  [⟨0, 1 / 0, 1 / 0, missing, 1 / 0, missing⟩, .ofMid 1 100 1, .ofMid 2 101 1]

/-- The same ticks with others between them, without a price or without a spread. -/
def paddedQuotes : List (Tick Float) :=
  [⟨0, missing, 1, 99, 101, 5⟩, ⟨0, 1 / 0, 1 / 0, missing, 1 / 0, missing⟩,
    ⟨0.5, 100, missing, 99, 101, 5⟩, .ofMid 1 100 1, .ofMid 2 101 1,
    ⟨3, missing, missing, 99, 101, 5⟩]

/-- The missing bid is rebuilt as no number. -/
theorem no_trace_in_paddedQuotes : Padded infiniteQuotes paddedQuotes ∧
    (validTicks infiniteQuotes).map (fun t => Scalar.isNaN t.bestBid) = [true, false, false] ∧
    run paddedQuotes belowAverage ⟨0, 5⟩ = run infiniteQuotes belowAverage ⟨0, 5⟩ ∧
    run (validTicks infiniteQuotes) belowAverage ⟨0, 5⟩ =
      run infiniteQuotes belowAverage ⟨0, 5⟩ := by
  have h : Padded infiniteQuotes paddedQuotes :=
    .insert (by decide +kernel) (.keep _ (.insert (by decide +kernel)
      (.keep _ (.keep _ (.insert (by decide +kernel) .nil)))))
  have hsame := invalid_ticks_leave_no_trace h
  exact ⟨h, by decide +kernel, hsame.1.strategy _ _, hsame.2.2.strategy _ _⟩

end TickBacktest.Strategy
