import TickBacktest.Decimal.Binary

/-! # Reading numbers

A number is written as an optional sign and then `inf`, `infinity` or `nan` in any case, or digits
with at most one point among them, and an optional exponent. It is read as the nearest double, a
half going to the even one. Whole numbers are read within their range or not at all. -/

namespace TickBacktest.Decimal

/-- The value of an ASCII digit. -/
def digitValue (c : Char) : Nat := c.toNat - 48

/-- The number written by digits, the most significant first. -/
def digitsValue (cs : List Char) : Nat := cs.foldl (fun n c => 10 * n + digitValue c) 0

/-- Whether a character is an ASCII digit. -/
def isDigit (c : Char) : Bool := '0' ≤ c && c ≤ '9'

/-- The value of a non-empty run of digits. -/
def natural? (cs : List Char) : Option Nat :=
  if cs.isEmpty then none else if cs.all isDigit then some (digitsValue cs) else none

/-- A sign, and the characters after it. -/
def takeSign : List Char → Bool × List Char
  | '-' :: cs => (true, cs)
  | '+' :: cs => (false, cs)
  | cs => (false, cs)

theorem length_takeSign_le (cs : List Char) : (takeSign cs).2.length ≤ cs.length := by
  unfold takeSign
  split <;> simp

/-- The exponent after an `e`, with its sign. -/
def exponent? (cs : List Char) : Option Int :=
  let (negative, ds) := takeSign cs
  (natural? ds).map fun n => if negative then -Int.ofNat n else Int.ofNat n

/-- An unsigned decimal number as digits and a power of ten. -/
def decimal? (cs : List Char) : Option (Nat × Int) :=
  let whole := cs.takeWhile isDigit
  let rest := cs.dropWhile isDigit
  let (fraction, rest) :=
    match rest with
    | '.' :: more => (more.takeWhile isDigit, more.dropWhile isDigit)
    | _ => ([], rest)
  let digits := whole ++ fraction
  let places := Int.ofNat fraction.length
  if digits.isEmpty then none
  else match rest with
    | [] => some (digitsValue digits, -places)
    | c :: more =>
      if c = 'e' ∨ c = 'E' then (exponent? more).map fun e => (digitsValue digits, e - places)
      else none

/-- The double a text stands for. -/
def float? (cs : List Char) : Option Float :=
  let (negative, body) := takeSign cs
  let word := String.ofList (body.map Char.toLower)
  if word = "inf" ∨ word = "infinity" then some (if negative then -(1 / 0) else 1 / 0)
  else if word = "nan" then some (0 / 0)
  else (decimal? body).map fun (m, e) => scientific negative m e

/-- The largest size that can be configured. -/
def maxSize : Nat := UInt64.size - 1

/-- A size: digits after an optional plus sign, at most `maxSize`. -/
def size? (cs : List Char) : Option Nat :=
  let ds := match cs with
    | '+' :: more => more
    | _ => cs
  (natural? ds).bind fun n => if n ≤ maxSize then some n else none

/-- A whole number of 64 bits with an optional sign. -/
def integer? (cs : List Char) : Option Int :=
  let (negative, ds) := takeSign cs
  (natural? ds).bind fun n =>
    if negative then if n ≤ Nat.pow 2 63 then some (-Int.ofNat n) else none
    else if n < Nat.pow 2 63 then some (Int.ofNat n) else none

end TickBacktest.Decimal
