/-! # Doubles as mantissa and exponent

A double is a NaN, an infinity, or a number `± mantissa * 2 ^ exponent`. Everything that has to be
exact about doubles, their decimal text and the remainder of a division, is computed on these two
whole numbers. -/

namespace TickBacktest.Decimal

/-- What a double stands for. A subnormal number has a mantissa below `2 ^ 52` and the exponent
`-1074`, which it shares with the smallest normal numbers. -/
inductive Binary where
  | nan
  | infinite (negative : Bool)
  | finite (negative : Bool) (mantissa : Nat) (exponent : Int)
  deriving DecidableEq, Repr

/-- The meaning of the sixteen hexadecimal digits of a double. -/
def Binary.ofBits (bits : Nat) : Binary :=
  let negative := bits / Nat.pow 2 63 % 2 == 1
  let field := bits / Nat.pow 2 52 % Nat.pow 2 11
  let fraction := bits % Nat.pow 2 52
  if field = 2047 then if fraction = 0 then .infinite negative else .nan
  else if field = 0 then .finite negative fraction (-1074)
  else .finite negative (Nat.pow 2 52 + fraction) (Int.ofNat field - 1075)

/-- The meaning of a double. -/
def Binary.ofFloat (x : Float) : Binary := .ofBits x.toBits.toNat

/-- The double nearest to `± m * 10 ^ e`. Beyond the range of doubles the answer is known from the
size of `m` and `e` alone, so no power of ten larger than needed is ever formed. -/
def scientific (negative : Bool) (m : Nat) (e : Int) : Float :=
  let x : Float :=
    if m = 0 then 0
    else if 400 < e then 1 / 0
    else if 0 ≤ e then Float.ofScientific m false e.toNat
    else if Int.ofNat (Nat.log2 m + 1) + 3 * e < -1400 then 0
    else Float.ofScientific m true (-e).toNat
  if negative then -x else x

/-- The double nearest to `± m * 2 ^ e`. -/
def dyadic (negative : Bool) (m : Nat) (e : Int) : Float :=
  if 0 ≤ e then scientific negative (m * Nat.pow 2 e.toNat) 0
  else scientific negative (m * Nat.pow 5 (-e).toNat) e

/-- The remainder of the exact quotient cut off toward zero: it has the sign of `x`, and is `x`
itself for an infinite `y`. -/
def remainder (x y : Float) : Float :=
  match Binary.ofFloat x, Binary.ofFloat y with
  | .finite negative m e, .finite _ n f =>
    if n = 0 then 0 / 0
    else
      let g := min e f
      dyadic negative (m * Nat.pow 2 (e - g).toNat % (n * Nat.pow 2 (f - g).toNat)) g
  | .finite .., .infinite _ => x
  | _, _ => 0 / 0

end TickBacktest.Decimal
