import TickBacktest.Scalar

/-! # Exact numbers

The rational numbers as scalars: every operation is exact and every order comparison is the order of
the numbers. Only the square root is rounded, down to a multiple of one over the denominator, which
makes it exact on squares. -/

namespace TickBacktest

/-- The square root, rounded down to a multiple of one over the denominator; zero for a negative
number. -/
def rationalSqrt (x : Rat) : Rat :=
  if x < 0 then 0 else mkRat (Nat.sqrt (x.num.toNat * x.den)) x.den

/-- Rational numbers with exact operations. They have no upper bound; the least and greatest value
of a list that is not empty never ask for one. -/
instance : Scalar Rat where
  decidableLT := inferInstance
  abs x := if x < 0 then -x else x
  sqrt := rationalSqrt
  infinity := 0
  inOrder x y := x ≤ y
  floor x := x.floor.toNat
  ceil x := x.ceil.toNat

end TickBacktest
