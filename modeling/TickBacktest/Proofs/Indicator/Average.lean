import Mathlib.Algebra.Order.BigOperators.Group.List
import Mathlib.Algebra.Order.Field.Rat
import Mathlib.Order.Interval.Set.Defs
import Mathlib.Tactic.Ring
import TickBacktest.Indicator.Window
import TickBacktest.Scalar.Rational

/-! # Sums and means of exact numbers

Over exact numbers it makes no difference in which order a sum is taken and what it starts from, so
the mean of some values is their sum over their number, whatever value it is an offset from
(`length_mul_mean`). It lies between any bounds that the values have (`mean_mem_Icc`). -/

namespace TickBacktest.Indicator

theorem scalarSum_eq (xs : List ℚ) : Scalar.sum xs = xs.sum :=
  List.sum_eq_foldl.symm

theorem sum_map_sub_const (xs : List ℚ) (a : ℚ) :
    (xs.map (· - a)).sum = xs.sum - xs.length * a := by
  induction xs with
  | nil => simp
  | cons x xs ih =>
    rw [List.map_cons, List.sum_cons, List.sum_cons, List.length_cons, ih, Nat.cast_succ]
    ring

/-- **The mean of some values, as often as there are values, is their sum.** -/
theorem length_mul_mean (xs : List ℚ) : xs.length * mean xs = xs.sum := by
  rcases xs with _ | ⟨anchor, xs⟩
  · exact zero_mul _
  · have hmean : mean (anchor :: xs) = anchor +
        Scalar.sum ((anchor :: xs).map (· - anchor)) / ((anchor :: xs).length : ℚ) := rfl
    have hlen : ((anchor :: xs).length : ℚ) ≠ 0 := Nat.cast_ne_zero.mpr (Nat.succ_ne_zero _)
    rw [hmean, scalarSum_eq, sum_map_sub_const, mul_add, mul_div_cancel₀ _ hlen]
    ring

/-- A mean is the sum over the number of values, also of no values, where both are zero. -/
theorem mean_eq (xs : List ℚ) : mean xs = xs.sum / xs.length := by
  rcases xs with _ | ⟨anchor, xs⟩
  · exact (div_zero (0 : ℚ)).symm
  · have hlen : ((anchor :: xs).length : ℚ) ≠ 0 := Nat.cast_ne_zero.mpr (Nat.succ_ne_zero _)
    rw [← length_mul_mean, mul_div_cancel_left₀ _ hlen]

/-- **A mean lies between the bounds of its values.** -/
theorem mean_mem_Icc {xs : List ℚ} {lo hi : ℚ} (hne : xs ≠ []) (h : ∀ x ∈ xs, x ∈ Set.Icc lo hi) :
    mean xs ∈ Set.Icc lo hi := by
  have hlen : (0 : ℚ) < xs.length := Nat.cast_pos.mpr (List.length_pos_of_ne_nil hne)
  have hlo := xs.card_nsmul_le_sum lo fun x hx => (h x hx).1
  have hhi := xs.sum_le_card_nsmul hi fun x hx => (h x hx).2
  rw [nsmul_eq_mul] at hlo hhi
  rw [mean_eq]
  exact ⟨(le_div_iff₀' hlen).mpr hlo, (div_le_iff₀' hlen).mpr hhi⟩

end TickBacktest.Indicator
