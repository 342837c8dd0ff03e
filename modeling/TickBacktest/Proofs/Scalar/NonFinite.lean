import TickBacktest.Decimal.Binary
import TickBacktest.Proofs.Scalar.Doubles

/-! # What is not finite

An infinity or a NaN as an operand. Sums, differences and products with one are not finite, nor is a
quotient or a remainder of one. As a divisor a NaN gives a NaN; an infinity does not: a finite
number divided by it is zero. -/

namespace TickBacktest.Doubles

open Decimal (Binary remainder)
open Float.Model (UnpackedFloat)

/-! ## Unpacked operands -/

section

variable {u v : UnpackedFloat}

/-- Packing keeps what is not finite as it is. -/
theorem unpack_pack (h : u.isFinite = false) : (Float.Model.pack u).unpack = u := by
  rcases u with (_ | _) | _ | _ | _
  case infinity.negative | infinity.positive | notANumber => rfl
  case zero | finite => cases h

theorem isFinite_pack (h : u.isFinite = false) :
    (Float.ofModel (.pack u)).isFinite = false := by
  rw [isFinite_eq, unpack_pack h]
  exact h

theorem isFinite_unpacked_add (h : u.isFinite = false ∨ v.isFinite = false) :
    (UnpackedFloat.add .binary64 u v).isFinite = false := by
  rcases u with (_ | _) | _ | _ | _ <;> rcases v with (_ | _) | _ | _ | _
  all_goals first | rfl | rcases h with h | h <;> cases h

theorem isFinite_unpacked_sub (h : u.isFinite = false ∨ v.isFinite = false) :
    (UnpackedFloat.sub .binary64 u v).isFinite = false := by
  rcases u with (_ | _) | _ | _ | _ <;> rcases v with (_ | _) | _ | _ | _
  all_goals first | rfl | rcases h with h | h <;> cases h

theorem isFinite_unpacked_mul (h : u.isFinite = false ∨ v.isFinite = false) :
    (UnpackedFloat.mul .binary64 u v).isFinite = false := by
  rcases u with _ | _ | _ | _ <;> rcases v with _ | _ | _ | _
  all_goals first | rfl | rcases h with h | h <;> cases h

theorem isFinite_unpacked_div (h : u.isFinite = false ∨ v.isNaN = true) :
    (UnpackedFloat.div .binary64 u v).isFinite = false := by
  rcases u with _ | _ | _ | _ <;> rcases v with _ | _ | _ | _
  all_goals first | rfl | rcases h with h | h <;> cases h

end

/-! ## Operations -/

section

variable {x y : Float}

theorem isFinite_neg (h : x.isFinite = false) : (-x).isFinite = false := by
  refine isFinite_pack (u := x.toModel.unpack.neg) ?_
  rw [isFinite_eq] at h
  revert h
  rcases x.toModel.unpack with _ | _ | _ | _ <;> exact id

/-- A sum with an operand that is not finite is not finite. -/
theorem isFinite_add (h : x.isFinite = false ∨ y.isFinite = false) : (x + y).isFinite = false :=
  isFinite_pack (isFinite_unpacked_add h)

theorem isFinite_sub (h : x.isFinite = false ∨ y.isFinite = false) : (x - y).isFinite = false :=
  isFinite_pack (isFinite_unpacked_sub h)

theorem isFinite_mul (h : x.isFinite = false ∨ y.isFinite = false) : (x * y).isFinite = false :=
  isFinite_pack (isFinite_unpacked_mul h)

/-- A quotient is not finite if the dividend is not, or if the divisor is a NaN. -/
theorem isFinite_div (h : x.isFinite = false ∨ y.isNaN = true) : (x / y).isFinite = false :=
  isFinite_pack (isFinite_unpacked_div h)

/-! ## Remainders -/

theorem unpackExponent_of_not_finite (h : x.isFinite = false) :
    @UnpackedFloat.unpackExponent .binary64 x.toModel.toBits.toBitVec = -1#11 := by
  rw [isFinite_eq] at h
  unfold Float.Model.unpack UnpackedFloat.unpack at h
  dsimp only at h
  by_contra hsmaller
  rw [if_neg hsmaller, apply_ite UnpackedFloat.isFinite, apply_dite UnpackedFloat.isFinite] at h
  -- both without and with the leading digit the number is finite
  have hboth : ∀ p q : Prop, ∀ [Decidable p] [Decidable q],
      (if p then (if q then true else true) else true) ≠ false := by
    intro p q _ _
    rw [ite_self, ite_self]
    exact Bool.noConfusion
  exact hboth _ _ h

/-- A double that is not finite is written with the largest exponent. -/
theorem exponent_of_not_finite (h : x.isFinite = false) :
    x.toBits.toNat / Nat.pow 2 52 % Nat.pow 2 11 = 2047 := by
  have hbits := congrArg BitVec.toNat (unpackExponent_of_not_finite h)
  unfold UnpackedFloat.unpackExponent at hbits
  rw [BitVec.toNat_cast, BitVec.extractLsb_toNat, Nat.shiftRight_eq_div_pow] at hbits
  exact hbits

theorem isFinite_of_isNaN (h : x.isNaN = true) : x.isFinite = false := by
  change x.toModel.unpack.isNaN = true at h
  rw [isFinite_eq]
  revert h
  rcases x.toModel.unpack with _ | _ | _ | _
  case notANumber => exact fun _ => rfl
  case infinity | zero | finite => exact fun h => (by cases h)

/-- A NaN has digits after the point, unlike an infinity. -/
theorem fraction_of_isNaN (h : x.isNaN = true) : x.toBits.toNat % Nat.pow 2 52 ≠ 0 := by
  have hexponent := unpackExponent_of_not_finite (isFinite_of_isNaN h)
  change x.toModel.unpack.isNaN = true at h
  unfold Float.Model.unpack UnpackedFloat.unpack at h
  dsimp only at h
  intro hzero
  have hdigits : @UnpackedFloat.unpackMantissa .binary64 x.toModel.toBits.toBitVec = 0#52 := by
    apply BitVec.eq_of_toNat_eq
    unfold UnpackedFloat.unpackMantissa
    rw [BitVec.toNat_cast, BitVec.extractLsb_toNat, Nat.shiftRight_zero]
    exact hzero
  rw [if_pos hexponent, if_pos hdigits] at h
  cases h

/-- **A remainder of what is not finite, or by a NaN, is a NaN.** -/
theorem remainder_eq_nan (h : x.isFinite = false ∨ y.isNaN = true) : remainder x y = 0 / 0 := by
  unfold remainder Binary.ofFloat Binary.ofBits
  dsimp only
  rcases h with h | h
  · rw [if_pos (exponent_of_not_finite h)]
    split <;> first | rfl | (next hx _ => split at hx <;> cases hx)
  · rw [if_pos (exponent_of_not_finite (isFinite_of_isNaN h)), if_neg (fraction_of_isNaN h)]
    split <;> first | rfl | (next hy => cases hy)

end

end TickBacktest.Doubles
