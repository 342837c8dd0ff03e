import Mathlib.Algebra.Order.Field.Rat
import Mathlib.Data.List.Basic
import Mathlib.Data.List.GetD
import Mathlib.Order.Bounds.Basic
import Mathlib.Tactic.Linarith
import Mathlib.Tactic.Ring
import TickBacktest.Indicator.Window
import TickBacktest.Scalar.Rational

/-! # Quantiles of sorted values

Over exact numbers. A quantile is read off a line through the sorted values, at a rank between zero
and the last place (`valueAt`). Between two places the line runs straight (`valueAt_eq_of_floor`),
and at a place it has the value that stands there, so it never falls, neither between two places nor
from one pair to the next (`valueAt_mono`). Hence quantiles grow with the fraction
(`quantile_mono`), from the first value at zero to the last one at one. -/

namespace TickBacktest.Indicator

/-! ## Ranks -/

section

variable {r : ℚ} {n : ℕ}

theorem natCast_floor (h : 0 ≤ r) : ((Scalar.floor r : ℕ) : ℚ) = r.floor := by
  have hfloor : 0 ≤ r.floor := Rat.le_floor_iff.mpr h
  exact_mod_cast congrArg (Int.cast (R := ℚ)) (Int.toNat_of_nonneg hfloor)

theorem floor_le (h : 0 ≤ r) : (Scalar.floor r : ℚ) ≤ r := by
  rw [natCast_floor h]
  exact Rat.floor_le r

theorem lt_floor_add_one (h : 0 ≤ r) : r < Scalar.floor r + 1 := by
  have hlt := Rat.lt_floor_add_one r
  rw [Int.cast_add, Int.cast_one] at hlt
  rw [natCast_floor h]
  exact hlt

theorem ceil_le_iff : Scalar.ceil r ≤ n ↔ r ≤ n := by
  have htoNat : Scalar.ceil r ≤ n ↔ r.ceil ≤ (n : Int) := Int.toNat_le
  rw [htoNat, Rat.ceil_le_iff, Int.cast_natCast]

theorem le_ceil (r : ℚ) : r ≤ Scalar.ceil r := ceil_le_iff.mp le_rfl

theorem floor_natCast (n : ℕ) : Scalar.floor (n : ℚ) = n := by
  have hle : (Scalar.floor (n : ℚ) : ℚ) ≤ n := floor_le n.cast_nonneg
  have hlt : (n : ℚ) < Scalar.floor (n : ℚ) + 1 := lt_floor_add_one n.cast_nonneg
  have hle' : Scalar.floor (n : ℚ) ≤ n := by exact_mod_cast hle
  have hlt' : n < Scalar.floor (n : ℚ) + 1 := by exact_mod_cast hlt
  omega

theorem ceil_natCast (n : ℕ) : Scalar.ceil (n : ℚ) = n := by
  have hle : Scalar.ceil (n : ℚ) ≤ n := ceil_le_iff.mpr le_rfl
  have hge : (n : ℚ) ≤ Scalar.ceil (n : ℚ) := le_ceil _
  have hge' : n ≤ Scalar.ceil (n : ℚ) := by exact_mod_cast hge
  omega

/-- What lies between a number and its floor has the same floor. -/
theorem floor_eq_floor {s : ℚ} (hs : 0 ≤ s) (hsr : Scalar.floor s ≤ r) (hrs : r ≤ s) :
    Scalar.floor r = Scalar.floor s := by
  have hr : 0 ≤ r := (Nat.cast_nonneg _).trans hsr
  have hlower : (Scalar.floor r : ℚ) < Scalar.floor s + 1 :=
    ((floor_le hr).trans hrs).trans_lt (lt_floor_add_one hs)
  have hupper : (Scalar.floor s : ℚ) < Scalar.floor r + 1 := hsr.trans_lt (lt_floor_add_one hr)
  have hlower' : Scalar.floor r < Scalar.floor s + 1 := by exact_mod_cast hlower
  have hupper' : Scalar.floor s < Scalar.floor r + 1 := by exact_mod_cast hupper
  omega

end

/-! ## The line through sorted values -/

theorem mem_iff_getD {xs : List ℚ} {x : ℚ} : x ∈ xs ↔ ∃ i < xs.length, xs.getD i 0 = x := by
  rw [List.mem_iff_getElem]
  constructor
  · rintro ⟨i, hi, rfl⟩
    exact ⟨i, hi, List.getD_eq_getElem _ 0 hi⟩
  · rintro ⟨i, hi, rfl⟩
    exact ⟨i, hi, (List.getD_eq_getElem _ 0 hi).symm⟩

/-- The value at a rank, on the line between the values at the two nearest places. -/
def valueAt (sorted : List ℚ) (rank : ℚ) : ℚ :=
  sorted.getD (Scalar.floor rank) 0 + (rank - Scalar.floor rank) *
    (sorted.getD (Scalar.ceil rank) 0 - sorted.getD (Scalar.floor rank) 0)

theorem quantile_eq (sorted : List ℚ) (fraction : ℚ) :
    quantile sorted fraction = valueAt sorted (fraction * (sorted.length - 1 : ℕ)) := rfl

theorem valueAt_natCast (sorted : List ℚ) (n : ℕ) : valueAt sorted n = sorted.getD n 0 := by
  unfold valueAt
  rw [floor_natCast, ceil_natCast, sub_self, zero_mul, add_zero]

/-- Between two places the line runs straight. -/
theorem valueAt_eq_of_floor {sorted : List ℚ} {r : ℚ} (h : 0 ≤ r) {k : ℕ}
    (hk : Scalar.floor r = k) : valueAt sorted r =
      sorted.getD k 0 + (r - k) * (sorted.getD (k + 1) 0 - sorted.getD k 0) := by
  subst hk
  have hle := floor_le h
  have hlt := lt_floor_add_one h
  rcases hle.eq_or_lt with heq | hbetween
  · have hvalue := valueAt_natCast sorted (Scalar.floor r)
    rw [heq] at hvalue
    rw [hvalue, heq, sub_self, zero_mul, add_zero]
  · have hceil : Scalar.ceil r = Scalar.floor r + 1 := by
      have hupper : Scalar.ceil r ≤ Scalar.floor r + 1 := by
        rw [ceil_le_iff, Nat.cast_succ]
        exact hlt.le
      have hlower : ¬ Scalar.ceil r ≤ Scalar.floor r := by
        rw [ceil_le_iff, not_le]
        exact hbetween
      omega
    unfold valueAt
    rw [hceil]

section

variable {sorted : List ℚ} (hsorted : sorted.Pairwise (· ≤ ·))
include hsorted

theorem getD_le_getD {i j : ℕ} (hij : i ≤ j) (hj : j < sorted.length) :
    sorted.getD i 0 ≤ sorted.getD j 0 := by
  have hi : i < sorted.length := Nat.lt_of_le_of_lt hij hj
  rw [List.getD_eq_getElem _ _ hi, List.getD_eq_getElem _ _ hj]
  rcases hij.eq_or_lt with rfl | hlt
  · exact le_rfl
  · exact List.pairwise_iff_getElem.mp hsorted i j hi hj hlt

/-- From a place on, the line to the next one does not fall. -/
theorem line_mono {k : ℕ} {x y : ℚ} (hx : 0 ≤ x) (hxy : x ≤ y)
    (hy : k + y ≤ (sorted.length - 1 : ℕ)) :
    x * (sorted.getD (k + 1) 0 - sorted.getD k 0) ≤
      y * (sorted.getD (k + 1) 0 - sorted.getD k 0) := by
  rcases (hx.trans hxy).eq_or_lt with hzero | hpos
  · -- at the last place there is no next one, and none is asked for
    rw [le_antisymm (hxy.trans hzero.ge) hx, ← hzero]
  · have hlast : (k : ℚ) < (sorted.length - 1 : ℕ) := by linarith
    have hnext : k < sorted.length - 1 := by exact_mod_cast hlast
    have hrise := getD_le_getD hsorted (Nat.le_succ k) (by omega)
    exact mul_le_mul_of_nonneg_right hxy (sub_nonneg.mpr hrise)

theorem getD_floor_le_valueAt {r : ℚ} (h : 0 ≤ r) (hr : r ≤ (sorted.length - 1 : ℕ)) :
    sorted.getD (Scalar.floor r) 0 ≤ valueAt sorted r := by
  have hline := line_mono hsorted (k := Scalar.floor r) le_rfl (sub_nonneg.mpr (floor_le h))
    (by linarith)
  rw [valueAt_eq_of_floor h rfl]
  linarith

/-- The line does not rise above the value at a later place. -/
theorem valueAt_le {r : ℚ} (h : 0 ≤ r) {n : ℕ} (hn : r ≤ n) (hlen : n < sorted.length) :
    valueAt sorted r ≤ sorted.getD n 0 := by
  have hle := floor_le h
  have hlt := lt_floor_add_one h
  set k := Scalar.floor r with hk
  have hkn : k ≤ n := by
    have hcast : (k : ℚ) ≤ n := hle.trans hn
    exact_mod_cast hcast
  rcases hkn.eq_or_lt with heq | hkn
  · obtain rfl : r = n := le_antisymm hn (heq ▸ hle)
    exact (valueAt_natCast sorted n).le
  · have hlast : (k : ℚ) + 1 ≤ (sorted.length - 1 : ℕ) := by
      have hnext : k + 1 ≤ sorted.length - 1 := by omega
      exact_mod_cast hnext
    have hline := line_mono hsorted (sub_nonneg.mpr hle) (sub_left_le_of_le_add hlt.le) hlast
    have hnext := getD_le_getD hsorted (Nat.succ_le_of_lt hkn) hlen
    rw [valueAt_eq_of_floor h hk.symm]
    linarith

/-- **The line never falls.** -/
theorem valueAt_mono {r s : ℚ} (h : 0 ≤ r) (hrs : r ≤ s) (hs : s ≤ (sorted.length - 1 : ℕ))
    (hne : sorted ≠ []) : valueAt sorted r ≤ valueAt sorted s := by
  have hs0 : 0 ≤ s := h.trans hrs
  have hfloor := floor_le hs0
  rcases le_total r (Scalar.floor s) with hbefore | hafter
  · have hlast : Scalar.floor s < sorted.length := by
      have hcast : (Scalar.floor s : ℚ) ≤ (sorted.length - 1 : ℕ) := hfloor.trans hs
      have hcast' : Scalar.floor s ≤ sorted.length - 1 := by exact_mod_cast hcast
      have hpos := List.length_pos_of_ne_nil hne
      omega
    exact (valueAt_le hsorted h hbefore hlast).trans (getD_floor_le_valueAt hsorted hs0 hs)
  · have hline := line_mono hsorted (sub_nonneg.mpr hafter) (sub_le_sub_right hrs _) (by linarith)
    rw [valueAt_eq_of_floor h (floor_eq_floor hs0 hafter hrs), valueAt_eq_of_floor hs0 rfl]
    linarith

variable (hne : sorted ≠ [])
include hne

/-- **Quantiles grow with the fraction.** -/
theorem quantile_mono {p q : ℚ} (hp : 0 ≤ p) (hpq : p ≤ q) (hq : q ≤ 1) :
    quantile sorted p ≤ quantile sorted q := by
  have hlast : (0 : ℚ) ≤ (sorted.length - 1 : ℕ) := Nat.cast_nonneg _
  rw [quantile_eq, quantile_eq]
  refine valueAt_mono hsorted (mul_nonneg hp hlast) (mul_le_mul_of_nonneg_right hpq hlast) ?_ hne
  exact mul_le_of_le_one_left hlast hq

/-- At zero a quantile is the least value. -/
theorem isLeast_quantile_zero : IsLeast {x | x ∈ sorted} (quantile sorted 0) := by
  have hpos := List.length_pos_of_ne_nil hne
  rw [quantile_eq, zero_mul, ← Nat.cast_zero, valueAt_natCast]
  refine ⟨mem_iff_getD.mpr ⟨0, hpos, rfl⟩, fun x hx => ?_⟩
  obtain ⟨i, hi, rfl⟩ := mem_iff_getD.mp hx
  exact getD_le_getD hsorted (Nat.zero_le i) hi

/-- At one a quantile is the greatest value. -/
theorem isGreatest_quantile_one : IsGreatest {x | x ∈ sorted} (quantile sorted 1) := by
  have hpos := List.length_pos_of_ne_nil hne
  have hlast : sorted.length - 1 < sorted.length := by omega
  rw [quantile_eq, one_mul, valueAt_natCast]
  refine ⟨mem_iff_getD.mpr ⟨_, hlast, rfl⟩, fun x hx => ?_⟩
  obtain ⟨i, hi, rfl⟩ := mem_iff_getD.mp hx
  exact getD_le_getD hsorted (by omega) hlast

end

end TickBacktest.Indicator
