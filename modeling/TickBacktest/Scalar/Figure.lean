import TickBacktest.Scalar.Rational

/-! # Exact numbers, and what is no number

A market series has gaps: ticks without a middle price or a spread, and quotes that are missing. For
a series of exact numbers with such gaps a figure is a rational number or none. What is calculated
from a figure that is none is none, and so is a quotient by zero and the root of a negative number.
No comparison holds of it, and it differs from itself. -/

namespace TickBacktest

/-- A rational number, or none. -/
inductive Figure where
  | number (x : Rat)
  | missing
  deriving DecidableEq, Repr

namespace Figure

/-- A function of a number. -/
def map (f : Rat → Rat) : Figure → Figure
  | number x => number (f x)
  | missing => missing

/-- A function of two numbers. -/
def combine (f : Rat → Rat → Rat) : Figure → Figure → Figure
  | number x, number y => number (f x y)
  | _, _ => missing

/-- The quotient of two numbers. -/
def quotient : Figure → Figure → Figure
  | number x, number y => if y = 0 then missing else number (x / y)
  | _, _ => missing

/-- The square root of a number. -/
def root : Figure → Figure
  | number x => if x < 0 then missing else number (rationalSqrt x)
  | missing => missing

/-- A comparison of two numbers. -/
def compares (p : Rat → Rat → Bool) : Figure → Figure → Bool
  | number x, number y => p x y
  | _, _ => false

/-- The order of the numbers, with none beyond them. -/
def ordered : Figure → Figure → Bool
  | number x, number y => x ≤ y
  | _, missing => true
  | missing, number _ => false

/-- A natural number near a number; zero for none. -/
def whole (f : Rat → Int) : Figure → Nat
  | number x => (f x).toNat
  | missing => 0

end Figure

/-- Figures with exact operations. They have no upper bound. -/
instance : Scalar Figure where
  natCast n := .number n
  add := .combine (· + ·)
  sub := .combine (· - ·)
  mul := .combine (· * ·)
  div := .quotient
  neg := .map (-·)
  lt x y := Figure.compares (fun x y => x < y) x y = true
  beq := Figure.compares (· == ·)
  decidableLT x y := inferInstanceAs (Decidable (Figure.compares (fun x y => x < y) x y = true))
  abs := .map fun x => if x < 0 then -x else x
  sqrt := .root
  infinity := .missing
  inOrder := Figure.ordered
  floor := Figure.whole Rat.floor
  ceil := Figure.whole Rat.ceil

namespace Figure

end Figure

end TickBacktest
