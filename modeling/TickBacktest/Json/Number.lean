import TickBacktest.Decimal.Plain
import TickBacktest.Decimal.Reading

/-! # Numbers in JSON

A number without point and exponent that fits 64 bits is a whole number; every other number is a
double. A double is not read with correct rounding: the digits are collected into a significand of
64 bits, as many as fit, and this is multiplied or divided by a power of ten. A number too large for
a double is no number at all.

Doubles are written with the shortest digits that read back, of two equally near ones the even one:
positionally from `1e-5` up to below `1e16`, with `.0` on whole numbers, else with an exponent. -/

namespace TickBacktest.Json

open Decimal

/-- A number of a JSON document. -/
inductive Number where
  | integer (n : Int)
  | float (x : Float)
  deriving Repr

/-- The number as a double. -/
def Number.toFloat : Number → Float
  | integer n => if n < 0 then -Float.ofNat n.natAbs else Float.ofNat n.natAbs
  | float x => x

/-! ## Reading -/

/-- The parts of a number as it is written. -/
structure NumberText where
  negative : Bool
  whole : List Char
  fraction : List Char
  exponent : Option (Bool × List Char)

/-- The largest significand. -/
def maxSignificand : Nat := UInt64.size - 1

/-- Collects digits into a significand, and counts those from the first one that does not fit. -/
def collect (significand : Nat) : List Char → Nat × Nat
  | [] => (significand, 0)
  | d :: ds =>
    let next := 10 * significand + digitValue d
    if next ≤ maxSignificand then collect next ds else (significand, ds.length + 1)

theorem toNat_neg_add_lt {e : Int} (h : e < -308) : (-(e + 308)).toNat < (-e).toNat := by omega

/-- `x * 10 ^ e` by at most one multiplication, or by divisions; none if it is too large. -/
def scale (x : Float) (e : Int) : Option Float :=
  if h : e < -308 then if x == 0 then some x else scale (x / scientific false 1 308) (e + 308)
  else if e < 0 then some (x / scientific false 1 (-e))
  else if 308 < e then if x == 0 then some x else none
  else
    let y := x * scientific false 1 e
    if y.isInf then none else some y
termination_by (-e).toNat
decreasing_by exact toNat_neg_add_lt h

/-- The number that a text stands for; none if it is too large for a double. -/
def NumberText.number (t : NumberText) : Option Number :=
  let (significand, left) := collect 0 t.whole
  if left = 0 ∧ t.fraction = [] ∧ t.exponent.isNone then
    if !t.negative then some (.integer significand)
    else if 0 < significand ∧ significand ≤ Nat.pow 2 63 then some (.integer (-(significand : Int)))
    else some (.float (-Float.ofNat significand))
  else
    let (significand, dropped) := collect significand t.fraction
    let e := match t.exponent with
      | some (negative, ds) =>
        let n := Int.ofNat (digitsValue ds)
        if negative then -n else n
      | none => 0
    let places := (t.fraction.length - dropped : Nat)
    (scale (Float.ofNat significand) (e + left - places)).map fun x =>
      .float (if t.negative then -x else x)

/-! ## Writing -/

/-- The digits `d` with a point after the first of them, if there are more. -/
def pointed (d : Nat) : List Char :=
  match natDigits d with
  | [] => []
  | [c] => [c]
  | c :: cs => c :: '.' :: cs

/-- The text of the number `d * 10 ^ k`. -/
def decimalText (d : Nat) (k : Int) : List Char :=
  let leading := k + Int.ofNat (natDigits d).length - 1
  if d = 0 then "0.0".toList
  else if -5 ≤ leading ∧ leading < 16 then
    if 0 ≤ k then positional d k ++ ['.', '0'] else positional d k
  else
    let sign := if leading < 0 then '-' else '+'
    pointed d ++ 'e' :: sign :: natDigits leading.natAbs

/-- The text of a double; `null` if it is not a finite number. -/
def floatText (x : Float) : List Char :=
  match Binary.ofFloat x with
  | .finite negative m q =>
    let (d, k) := shortest .even m q
    signChars negative ++ decimalText d k
  | _ => "null".toList

/-- The text of a whole number. -/
def integerText (n : Int) : List Char := signChars (n < 0) ++ natDigits n.natAbs

def Number.text : Number → List Char
  | integer n => integerText n
  | float x => floatText x

end TickBacktest.Json
