import Mathlib.Algebra.Order.Field.Basic
import Mathlib.Algebra.Order.Ring.Abs
import Mathlib.Tactic.FieldSimp
import Mathlib.Tactic.Linarith
import TickBacktest.Backtest.Metrics
import TickBacktest.Proofs.Indicator.Average

/-! # Statistics of wins and losses

Over exact numbers. The metrics calculate what they say about wins and losses apart from each other:
rates from counts, averages as means of the wins and of the losses alone, the expectancy and the
profit factor from gross sums, and the average return over all periods. They fit together
(`trade_statistics_consistent`), also where there are no wins or no losses, since they all speak of
one split of the returns: wins, losses, and returns of zero that add nothing
(`sum_wins_add_sum_losses`). -/

namespace TickBacktest.Backtest

open Indicator

/-! ## Wins and losses -/

/-- The positive returns. -/
def wins (returns : List ℚ) : List ℚ := returns.filter fun r => 0 < r

/-- The negative returns. -/
def losses (returns : List ℚ) : List ℚ := returns.filter fun r => r < 0

section

variable {returns : List ℚ}

theorem length_wins (returns : List ℚ) :
    (wins returns).length = returns.countP fun r => 0 < r :=
  List.countP_eq_length_filter.symm

theorem length_losses (returns : List ℚ) :
    (losses returns).length = returns.countP fun r => r < 0 :=
  List.countP_eq_length_filter.symm

theorem pos_of_mem_wins {r : ℚ} (h : r ∈ wins returns) : 0 < r :=
  of_decide_eq_true (List.mem_filter.mp h).2

theorem neg_of_mem_losses {r : ℚ} (h : r ∈ losses returns) : r < 0 :=
  of_decide_eq_true (List.mem_filter.mp h).2

/-- **Returns of zero add nothing**: the wins and the losses add up to the sum of all returns. -/
theorem sum_wins_add_sum_losses (returns : List ℚ) :
    (wins returns).sum + (losses returns).sum = returns.sum := by
  unfold wins losses
  induction returns with
  | nil => exact add_zero 0
  | cons r rs ih =>
    rcases lt_trichotomy r 0 with hr | rfl | hr
    · rw [List.filter_cons_of_neg (by simpa using hr.le),
        List.filter_cons_of_pos (by simpa using hr), List.sum_cons, List.sum_cons, ← ih]
      exact add_left_comm _ _ _
    · rw [List.filter_cons_of_neg (by simp), List.filter_cons_of_neg (by simp), List.sum_cons,
        zero_add, ih]
    · rw [List.filter_cons_of_pos (by simpa using hr),
        List.filter_cons_of_neg (by simpa using hr.le), List.sum_cons, List.sum_cons, ← ih]
      exact add_assoc _ _ _

theorem sum_wins_nonneg (returns : List ℚ) : 0 ≤ (wins returns).sum :=
  List.sum_nonneg fun _ hr => (pos_of_mem_wins hr).le

theorem sum_losses_neg (h : losses returns ≠ []) : (losses returns).sum < 0 := by
  simpa using List.sum_lt_sum_of_ne_nil h id (fun _ => 0) fun _ hr => neg_of_mem_losses hr

theorem sum_losses_nonpos (returns : List ℚ) : (losses returns).sum ≤ 0 := by
  by_cases h : losses returns = []
  · rw [h]
    exact le_rfl
  · exact (sum_losses_neg h).le

theorem mean_wins_nonneg (returns : List ℚ) : 0 ≤ mean (wins returns) := by
  rw [mean_eq]
  exact div_nonneg (sum_wins_nonneg returns) (Nat.cast_nonneg _)

theorem mean_losses_nonpos (returns : List ℚ) : mean (losses returns) ≤ 0 := by
  rw [mean_eq]
  exact div_nonpos_of_nonpos_of_nonneg (sum_losses_nonpos returns) (Nat.cast_nonneg _)

theorem mean_losses_neg (h : losses returns ≠ []) : mean (losses returns) < 0 := by
  rw [mean_eq]
  exact div_neg_of_neg_of_pos (sum_losses_neg h) (Nat.cast_pos.mpr (List.length_pos_of_ne_nil h))

end

/-! ## Rates and shares -/

theorem scalarAbs_eq (x : ℚ) : Scalar.abs x = |x| := by
  by_cases h : x < 0
  · exact (if_pos h).trans (abs_of_neg h).symm
  · exact (if_neg h).trans (abs_of_nonneg (not_lt.mp h)).symm

theorem percentOf_eq {n total : ℕ} (h : 0 < total) :
    (percentOf n total : ℚ) = n / total * 100 :=
  if_neg h.ne'

theorem percentOf_mem_Icc {n total : ℕ} (h : n ≤ total) :
    (percentOf n total : ℚ) ∈ Set.Icc 0 100 := by
  rcases Nat.eq_zero_or_pos total with rfl | htotal
  · have hzero : (percentOf n 0 : ℚ) = 0 := rfl
    rw [hzero]
    exact ⟨le_rfl, by norm_num⟩
  · have hpos : (0 : ℚ) < total := Nat.cast_pos.mpr htotal
    have hone : (n : ℚ) / total ≤ 1 := (div_le_one hpos).mpr (Nat.cast_le.mpr h)
    have hzero : (0 : ℚ) ≤ n / total := div_nonneg (Nat.cast_nonneg _) hpos.le
    rw [percentOf_eq htotal]
    constructor <;> linarith

/-- Every period ends in one of the three positions. -/
theorem count_add_count_add_count (ps : List Position) :
    ps.count .long + ps.count .short + ps.count .flat = ps.length := by
  induction ps with
  | nil => rfl
  | cons p ps ih =>
    rw [List.length_cons, ← ih, List.count_cons, List.count_cons, List.count_cons]
    cases p
    all_goals
      simp
      omega

/-! ## The figures -/

/-- The figures about wins and losses fit together, in a run with so many periods, wins and
losses. -/
structure Metrics.Consistent (m : Metrics ℚ) (periods numWins numLosses : ℕ) : Prop where
  shares : m.timeLong + m.timeShort + m.timeFlat = 100
  winRate : m.winRate ∈ Set.Icc 0 100
  averageLoss : m.averageLoss ≤ 0
  averageWin : 0 ≤ m.averageWin
  expectancy : 0 < numWins + numLosses → m.expectancy =
    m.winRate / 100 * m.averageWin + (1 - m.winRate / 100) * m.averageLoss
  averageReturn : 0 < numWins + numLosses →
    m.averageReturn * periods * 100 = m.expectancy * (numWins + numLosses : ℕ)
  profitFactor : 0 < numLosses → m.profitFactor * numLosses = m.winLossRatio * numWins

section

variable {returns : List ℚ} {positions : List Position} {numTrades : ℕ}

/-- **The shares of the positions add up to a hundred percent.** -/
theorem sum_shares (h : positions ≠ []) :
    let m := Metrics.of returns positions numTrades
    m.timeLong + m.timeShort + m.timeFlat = 100 := by
  have hpos : 0 < positions.length := List.length_pos_of_ne_nil h
  have hlen : (positions.length : ℚ) ≠ 0 := Nat.cast_ne_zero.mpr hpos.ne'
  have hcounts : (positions.count .long + positions.count .short + positions.count .flat : ℚ) =
      positions.length := by exact_mod_cast count_add_count_add_count positions
  show (percentOf _ _ + percentOf _ _ + percentOf _ _ : ℚ) = 100
  rw [percentOf_eq hpos, percentOf_eq hpos, percentOf_eq hpos, ← add_mul, ← add_mul, ← add_div,
    ← add_div, hcounts, div_self hlen, one_mul]

/-- **The expectancy is the sum of all returns over the number of wins and losses**, in percent. -/
theorem expectancy_of (h : 0 < (wins returns).length + (losses returns).length) :
    (Metrics.of returns positions numTrades).expectancy =
      returns.sum / ((wins returns).length + (losses returns).length : ℕ) * 100 := by
  have hdef : (Metrics.of returns positions numTrades).expectancy =
      (if (wins returns).length + (losses returns).length = 0 then (0 : ℚ)
        else (Scalar.sum (wins returns) - Scalar.abs (Scalar.sum (losses returns))) /
          ((wins returns).length + (losses returns).length : ℕ)) * 100 := rfl
  rw [hdef, if_neg h.ne', scalarAbs_eq, scalarSum_eq, scalarSum_eq,
    abs_of_nonpos (sum_losses_nonpos returns), sub_neg_eq_add, sum_wins_add_sum_losses]

/-- The expectancy is the average win and the average loss, weighted with their rates. -/
theorem expectancy_eq_weighted (h : 0 < (wins returns).length + (losses returns).length) :
    let m := Metrics.of returns positions numTrades
    m.expectancy = m.winRate / 100 * m.averageWin + (1 - m.winRate / 100) * m.averageLoss := by
  intro m
  set w := (wins returns).length
  set l := (losses returns).length
  have hdecided : ((w + l : ℕ) : ℚ) ≠ 0 := Nat.cast_ne_zero.mpr h.ne'
  have hrate : m.winRate / 100 = w / (w + l : ℕ) := by
    have hdef : m.winRate = percentOf w (w + l) := rfl
    rw [hdef, percentOf_eq h, mul_div_cancel_right₀ _ (by norm_num)]
  have hrest : 1 - m.winRate / 100 = l / (w + l : ℕ) := by
    rw [hrate, eq_div_iff hdecided, sub_mul, div_mul_cancel₀ _ hdecided, Nat.cast_add]
    ring
  have hwin : m.averageWin = mean (wins returns) * 100 := rfl
  have hloss : m.averageLoss = mean (losses returns) * 100 := rfl
  calc m.expectancy = returns.sum / (w + l : ℕ) * 100 := expectancy_of h
    _ = (w * mean (wins returns) + l * mean (losses returns)) / (w + l : ℕ) * 100 := by
        rw [length_mul_mean, length_mul_mean, sum_wins_add_sum_losses]
    _ = m.winRate / 100 * m.averageWin + (1 - m.winRate / 100) * m.averageLoss := by
        rw [hrest, hrate, hwin, hloss]
        ring

/-- The expectancy of all wins and losses is the average return of all periods. -/
theorem averageReturn_mul (h : 0 < (wins returns).length + (losses returns).length) :
    let m := Metrics.of returns positions numTrades
    m.averageReturn * returns.length * 100 =
      m.expectancy * ((wins returns).length + (losses returns).length : ℕ) := by
  intro m
  have hdecided : (((wins returns).length + (losses returns).length : ℕ) : ℚ) ≠ 0 :=
    Nat.cast_ne_zero.mpr h.ne'
  have haverage : m.averageReturn = mean returns := rfl
  rw [haverage, mul_comm (mean returns), length_mul_mean, expectancy_of h, mul_right_comm,
    div_mul_cancel₀ _ hdecided]

/-- The profit factor is the ratio of the averages, weighted with the numbers of wins and losses. -/
theorem profitFactor_mul (h : 0 < (losses returns).length) :
    let m := Metrics.of returns positions numTrades
    m.profitFactor * (losses returns).length = m.winLossRatio * (wins returns).length := by
  intro m
  have hne : losses returns ≠ [] := List.ne_nil_of_length_pos h
  have hl : ((losses returns).length : ℚ) ≠ 0 := Nat.cast_ne_zero.mpr h.ne'
  have hmean : mean (losses returns) < 0 := mean_losses_neg hne
  have hgross : 0 < |(losses returns).sum| := abs_pos.mpr (sum_losses_neg hne).ne
  have hfactor : m.profitFactor = (wins returns).sum / |(losses returns).sum| := by
    have hdef : m.profitFactor =
        ratioOver (Scalar.sum (wins returns)) (Scalar.abs (Scalar.sum (losses returns))) := rfl
    rw [hdef, scalarAbs_eq, scalarSum_eq, scalarSum_eq]
    exact if_pos hgross
  have hratio : m.winLossRatio = mean (wins returns) / |mean (losses returns)| := by
    have hdef : m.winLossRatio = if mean (losses returns) != 0 then
        Scalar.abs (mean (wins returns) / mean (losses returns)) else 0 := rfl
    rw [hdef, if_pos (by simpa using hmean.ne), scalarAbs_eq, abs_div,
      abs_of_nonneg (mean_wins_nonneg returns)]
  have hmean' : |mean (losses returns)| ≠ 0 := abs_ne_zero.mpr hmean.ne
  rw [hfactor, hratio, ← length_mul_mean, ← length_mul_mean, abs_mul, Nat.abs_cast]
  field_simp

end

/-- **The trade statistics are consistent**, for any returns and as many positions: shares, rates,
averages, the expectancy and the profit factor describe the same wins and losses. -/
theorem trade_statistics_consistent {returns : List ℚ} {positions : List Position}
    (hne : returns ≠ []) (hlen : positions.length = returns.length) (numTrades : ℕ) :
    (Metrics.of returns positions numTrades).Consistent returns.length
      (returns.countP fun r => 0 < r) (returns.countP fun r => r < 0) := by
  have hpositions : positions ≠ [] := by
    refine List.ne_nil_of_length_pos ?_
    rw [hlen]
    exact List.length_pos_of_ne_nil hne
  rw [← length_wins, ← length_losses]
  refine ⟨sum_shares hpositions, percentOf_mem_Icc (Nat.le_add_right _ _), ?_, ?_,
    expectancy_eq_weighted, averageReturn_mul, profitFactor_mul⟩
  · exact mul_nonpos_of_nonpos_of_nonneg (mean_losses_nonpos returns) (by norm_num)
  · exact mul_nonneg (mean_wins_nonneg returns) (by norm_num)

/-- Two wins of different size, a loss, and returns of zero before and between them. -/
def mixedReturns : List ℚ := [0, 1 / 50, -1 / 100, 0, 1 / 100]

theorem trade_statistics_mixedReturns : mixedReturns ≠ [] ∧
    (List.replicate 5 Position.long).length = mixedReturns.length ∧
    (Metrics.of mixedReturns (List.replicate 5 .long) 2).Consistent 5 2 1 ∧
    (Metrics.of mixedReturns (List.replicate 5 .long) 2).expectancy = 2 / 3 := by
  have hne : mixedReturns ≠ [] := List.cons_ne_nil _ _
  have hlen : (List.replicate 5 Position.long).length = mixedReturns.length := rfl
  have hconsistent := trade_statistics_consistent hne hlen 2
  have hwins : mixedReturns.countP (fun r => 0 < r) = 2 := by decide +kernel
  have hlosses : mixedReturns.countP (fun r => r < 0) = 1 := by decide +kernel
  rw [hwins, hlosses] at hconsistent
  exact ⟨hne, hlen, hconsistent, by decide +kernel⟩

end TickBacktest.Backtest
