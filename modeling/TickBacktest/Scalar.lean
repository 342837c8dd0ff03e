/-! # Numbers to calculate with

Prices, returns and statistics are calculated over a type of scalars: doubles when the program runs,
exact numbers when a law of arithmetic is to be seen without rounding (`Scalar.Rational`). A
calculation names only what both have: the four operations, the order, and a few functions whose
exact form each type brings itself. -/

namespace TickBacktest

/-- A type of numbers that prices and statistics can be calculated over.

`infinity` is an upper bound of the type where it has one. `inOrder` is a total order, also on
values that are not comparable, and sorts. `floor` and `ceil` are the nearest naturals below and
above, zero for a negative number and `2 ^ 64 - 1` at most. -/
class Scalar (α : Type) extends NatCast α, Add α, Sub α, Mul α, Div α, Neg α, LT α, BEq α where
  decidableLT : DecidableLT α
  abs : α → α
  sqrt : α → α
  infinity : α
  inOrder : α → α → Bool
  floor : α → Nat
  ceil : α → Nat

namespace Scalar

attribute [reducible, instance] decidableLT

variable {α : Type} [Scalar α]

/-- Numerals are casts of natural numbers. -/
instance (priority := low) instOfNat {n : Nat} : OfNat α n := ⟨(n : α)⟩

/-- A value that differs from itself: no number. -/
def isNaN (x : α) : Bool := x != x

/-- The sum from the left, starting at negative zero, the neutral element of rounded addition. -/
def sum (xs : List α) : α := xs.foldl (· + ·) (-0)

/-- The bound `b` after `x` is seen, where `better x b` says that `x` replaces it. The first number
sets the bound; a value that is no number leaves it. -/
def bound (better : α → α → Bool) (b : Option α) (x : α) : Option α :=
  match b with
  | some y => some (if better x y then x else y)
  | none => if isNaN x then none else some x

/-- The least number of a list, the first of equal ones. -/
def least? (xs : List α) : Option α := xs.foldl (bound fun x y => x < y) none

/-- The greatest number of a list, the first of equal ones. -/
def greatest? (xs : List α) : Option α := xs.foldl (bound fun x y => y < x) none

end Scalar

/-! ## Doubles -/

/-- The place of a double in the total order of its bits: negative numbers first, then from the
zeros to infinity, and a NaN beyond infinity. There is one NaN here. On a machine a NaN has a sign,
which arithmetic may set, and one with the sign set has its place before negative infinity; that is
left out. -/
def doubleRank (x : Float) : Int :=
  let bits := x.toBits.toNat
  if bits < Nat.pow 2 63 then bits else Int.ofNat (Nat.pow 2 63) - 1 - (bits : Int)

/-- Doubles with the operations of the machine. -/
instance : Scalar Float where
  natCast := Float.ofNat
  decidableLT := inferInstance
  abs := Float.abs
  sqrt := Float.sqrt
  infinity := 1 / 0
  inOrder x y := doubleRank x ≤ doubleRank y
  floor x := x.floor.toUInt64.toNat
  ceil x := x.ceil.toUInt64.toNat

end TickBacktest
