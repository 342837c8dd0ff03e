import Mathlib.Algebra.Order.Field.Rat
import Mathlib.Algebra.Order.Field.Power
import Mathlib.Tactic.Linarith
import Mathlib.Tactic.Positivity
import TickBacktest.Proofs.Scalar.Doubles

/-! # The exact value of a double

A double stands for a rational number, its mantissa times a power of two. Doubles compare by their
exponents first, which is right because no mantissa has more than 53 bits (`mantissa_lt`): a double
from 0 to 1 stands for a number from 0 to 1 (`exactValue_nonneg`, `exactValue_le_one`). -/

namespace TickBacktest.Doubles

open Float.Model (UnpackedFloat)

/-- The number that a double stands for; zero where it stands for none. -/
def exactValue (x : Float) : ℚ :=
  match x.toModel.unpack with
  | .finite .positive m e _ => m * 2 ^ e
  | .finite .negative m e _ => -(m * 2 ^ e)
  | _ => 0

/-- The mantissa of what a double unpacks to; zero where there is none. -/
def mantissa : UnpackedFloat → ℕ
  | .finite _ m _ _ => m
  | _ => 0

/-- A mantissa has 53 bits, the leading one of which need not be stored. -/
theorem mantissa_unpack_lt (x : Float) : mantissa x.toModel.unpack < 2 ^ 53 := by
  unfold Float.Model.unpack UnpackedFloat.unpack
  dsimp only
  rw [apply_ite mantissa, apply_ite mantissa, apply_ite mantissa, apply_dite mantissa]
  change (if _ then (if _ then 0 else 0) else if _ then (if _h : _ then 0 else BitVec.toNat _)
    else BitVec.toNat _) < _
  split_ifs
  · decide
  · decide
  · decide
  · refine Nat.lt_trans (BitVec.isLt _) ?_
    decide
  · exact BitVec.isLt _

theorem mantissa_lt {x : Float} {s : UnpackedFloat.Sign} {m : ℕ} {e : Int} {hm : 0 < m}
    (h : x.toModel.unpack = .finite s m e hm) : m < 2 ^ 53 := by
  have hlt := mantissa_unpack_lt x
  rwa [h] at hlt

theorem exactValue_nonneg {x : Float} (h : 0 ≤ x) : 0 ≤ exactValue x := by
  have hzero : (0 : Float).toModel.unpack = .zero .positive := by rfl
  rw [le_iff, hzero] at h
  unfold exactValue
  generalize x.toModel.unpack = u at h ⊢
  rcases u with _ | _ | _ | ⟨_ | _, m, e, hm⟩
  · exact le_rfl
  · exact le_rfl
  · exact le_rfl
  · cases h
  · have hvalue : (0 : ℚ) ≤ m * 2 ^ e := by positivity
    exact hvalue

theorem exactValue_le_one {x : Float} (h : x ≤ 1) : exactValue x ≤ 1 := by
  obtain ⟨hone, hunpack⟩ := unpacks_one
  rw [le_iff, hunpack] at h
  unfold exactValue
  rcases hx : x.toModel.unpack with _ | _ | _ | ⟨_ | _, m, e, hm⟩
  · exact zero_le_one
  · exact zero_le_one
  · exact zero_le_one
  · have hpos : (0 : ℚ) ≤ m * 2 ^ e := by positivity
    dsimp only
    linarith
  · -- below the exponent of one the whole mantissa is too small, and at it the mantissas compare
    have hm53 : (m : ℚ) ≤ 2 ^ 53 := by exact_mod_cast (mantissa_lt hx).le
    rw [hx, le_positive] at h
    dsimp only
    rcases lt_trichotomy e (-52) with he | rfl | he
    · have hpow : (2 : ℚ) ^ e ≤ 2 ^ (-53 : ℤ) :=
        zpow_le_zpow_right₀ one_le_two (Int.le_sub_one_of_lt he)
      calc (m : ℚ) * 2 ^ e ≤ 2 ^ 53 * 2 ^ (-53 : ℤ) := by gcongr
        _ = 1 := by norm_num
    · have hle : m ≤ 4503599627370496 := by
        rw [Std.compare_self] at h
        exact Nat.isLE_compare.mp h
      have hle' : (m : ℚ) ≤ 4503599627370496 := by exact_mod_cast hle
      calc (m : ℚ) * 2 ^ (-52 : ℤ) ≤ 4503599627370496 * 2 ^ (-52 : ℤ) := by gcongr
        _ = 1 := by norm_num
    · rw [Int.compare_eq_gt.mpr he] at h
      cases h

end TickBacktest.Doubles
