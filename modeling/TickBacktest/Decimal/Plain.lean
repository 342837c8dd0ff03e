import TickBacktest.Decimal.Shortest

/-! # Plain decimal text

Numbers in messages are written with the shortest digits that read back and never with an exponent:
`0.0000001`, `100`, `-0`, and `inf`, `-inf`, `NaN` for the values that are not numbers. -/

namespace TickBacktest.Decimal

/-- The decimal digits of a natural number. -/
def natDigits (n : Nat) : List Char := Nat.toDigits 10 n

/-- The digits of `n` with zeros in front, at least `width` of them. -/
def zeroPadded (width n : Nat) : List Char :=
  let ds := natDigits n
  List.replicate (width - ds.length) '0' ++ ds

/-- The positional text of `d * 10 ^ k`. -/
def positional (d : Nat) (k : Int) : List Char :=
  if 0 ≤ k then if d = 0 then ['0'] else natDigits d ++ List.replicate k.toNat '0'
  else
    let places := (-k).toNat
    let ds := zeroPadded (places + 1) d
    ds.take (ds.length - places) ++ '.' :: ds.drop (ds.length - places)

/-- The sign of a negative number. -/
def signChars (negative : Bool) : List Char := if negative then ['-'] else []

/-- The plain text of a double. Of two shortest texts equally near, the larger one is written. -/
def plainChars (x : Float) : List Char :=
  match Binary.ofFloat x with
  | .nan => "NaN".toList
  | .infinite negative => signChars negative ++ "inf".toList
  | .finite negative m q =>
    let (d, k) := shortest .away m q
    signChars negative ++ positional d k

/-- The plain text of a double. -/
def plain (x : Float) : String := String.ofList (plainChars x)

end TickBacktest.Decimal
