import Mathlib.Order.Basic
import TickBacktest.Indicator.Call

/-! # The order of doubles

Comparing two doubles is comparing what their bits unpack to. What lies between two positive numbers
is finite, and a number below another one is below every number with a larger exponent. A double has
one sign at most, and none if it is a zero or a NaN. -/

namespace TickBacktest.Doubles

open Float.Model (UnpackedFloat)

theorem le_iff {x y : Float} : x ≤ y ↔ x.toModel.unpack.le y.toModel.unpack = true :=
  decide_eq_true_iff

theorem lt_iff {x y : Float} : x < y ↔ x.toModel.unpack.lt y.toModel.unpack = true :=
  decide_eq_true_iff

/-- Positive numbers compare by their exponents first. -/
theorem le_positive {m k : ℕ} {e d : Int} {hm : 0 < m} {hk : 0 < k} :
    UnpackedFloat.le (.finite .positive m e hm) (.finite .positive k d hk) =
      ((compare e d).then (compare m k)).isLE := rfl

theorem isFinite_eq (x : Float) : x.isFinite = x.toModel.unpack.isFinite := rfl

/-- A positive number with the mantissa `m` and the exponent `e`. -/
def Unpacks (x : Float) (m : ℕ) (e : Int) : Prop :=
  ∃ h : 0 < m, x.toModel.unpack = .finite .positive m e h

theorem unpacks_one : Unpacks 1 4503599627370496 (-52) := ⟨by decide, rfl⟩

theorem unpacks_two_pow_53 : Unpacks 9007199254740992 4503599627370496 1 := ⟨by decide, rfl⟩

theorem unpacks_two_pow_64 : Unpacks 18446744073709551616 4503599627370496 12 :=
  ⟨by decide, rfl⟩

section

variable {x y z : Float} {m k : ℕ} {e d : Int}

/-- Between two positive numbers there are only finite ones. -/
theorem isFinite_of_between (hy : Unpacks y m e) (hz : Unpacks z k d) (hyx : y ≤ x)
    (hxz : x ≤ z) : x.isFinite = true := by
  obtain ⟨hm, hy⟩ := hy
  obtain ⟨hk, hz⟩ := hz
  rw [le_iff, hy] at hyx
  rw [le_iff, hz] at hxz
  rw [isFinite_eq]
  generalize x.toModel.unpack = u at hyx hxz ⊢
  rcases u with (_ | _) | _ | _ | _
  · cases hyx
  · cases hxz
  · cases hyx
  · rfl
  · rfl

/-- What is at least a positive number is not zero. -/
theorem not_beq_of_zero (hz : z.toModel.unpack = .zero .positive)
    (hy : Unpacks y m e) (hyx : y ≤ x) : ¬ (z == x) = true := by
  obtain ⟨hm, hy⟩ := hy
  intro hzx
  replace hzx : z.toModel.unpack.beq x.toModel.unpack = true := hzx
  rw [le_iff, hy] at hyx
  rw [hz] at hzx
  generalize x.toModel.unpack = u at hyx hzx
  rcases u with (_ | _) | _ | _ | ⟨_ | _, n, c, hn⟩
  · cases hyx
  · cases hzx
  · cases hyx
  · cases hyx
  · cases hyx
  · cases hzx

/-- What is at most a positive number is at most any with a larger exponent. -/
theorem le_of_le_of_exponent_lt (hxy : x ≤ y) (hy : Unpacks y m e) (hz : Unpacks z k d)
    (hed : e < d) : x ≤ z := by
  obtain ⟨hm, hy⟩ := hy
  obtain ⟨hk, hz⟩ := hz
  rw [le_iff, hy] at hxy
  rw [le_iff, hz]
  generalize x.toModel.unpack = u at hxy ⊢
  -- only a positive finite number is compared by its exponent
  rcases u with (_ | _) | _ | _ | ⟨_ | _, n, c, hn⟩
  · rfl
  · cases hxy
  · cases hxy
  · rfl
  · rfl
  · have hce : c ≤ e := by
      by_contra hce
      have hgt : compare c e = .gt := Int.compare_eq_gt.mpr (Int.not_le.mp hce)
      rw [le_positive, hgt] at hxy
      cases hxy
    have hlt : compare c d = .lt := Int.compare_eq_lt.mpr (Int.lt_of_le_of_lt hce hed)
    rw [le_positive, hlt]
    rfl

/-! ## Signs -/

/-- What is positive is not negative. -/
theorem not_neg_of_pos (h : 0 < x) : ¬ x < 0 := by
  have hzero : (0 : Float).toModel.unpack = .zero .positive := rfl
  rw [lt_iff, hzero] at h ⊢
  generalize x.toModel.unpack = u at h ⊢
  rcases u with (_ | _) | _ | _ | ⟨_ | _, n, c, hn⟩
  case infinity.positive | finite.positive => exact Bool.false_ne_true
  all_goals cases h

/-- **Only the zeros and a NaN have no sign.** -/
theorem pos_or_neg_iff : 0 < x ∨ x < 0 ↔ ¬ ((x == 0) = true ∨ x.isNaN = true) := by
  have hzero : (0 : Float).toModel.unpack = .zero .positive := rfl
  have heq : (x == 0) = x.toModel.unpack.beq (0 : Float).toModel.unpack := rfl
  have hnan : x.isNaN = x.toModel.unpack.isNaN := rfl
  rw [lt_iff, lt_iff, heq, hnan, hzero]
  generalize x.toModel.unpack = u
  rcases u with (_ | _) | _ | (_ | _) | ⟨_ | _, n, c, hn⟩
  case notANumber | zero.negative | zero.positive => decide
  case infinity.negative | finite.negative =>
    refine iff_of_true (.inr rfl) ?_
    rintro (h | h) <;> cases h
  case infinity.positive | finite.positive =>
    refine iff_of_true (.inl rfl) ?_
    rintro (h | h) <;> cases h

end

end TickBacktest.Doubles
