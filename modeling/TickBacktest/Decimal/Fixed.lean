import TickBacktest.Decimal.Plain

/-! # Fixed places

Tables show numbers with a fixed number of places. The exact value is rounded to the nearest
multiple of the last place, a half going to the even neighbour, and the text is padded with spaces
to the width of its column. -/

namespace TickBacktest.Decimal

/-- The whole number nearest to `num / den`, a half going to the even neighbour. -/
def roundHalfEven (num den : Nat) : Nat :=
  let d := num / den
  let twice := 2 * (num % den)
  if twice < den then d
  else if den < twice then d + 1
  else if d % 2 = 0 then d else d + 1

/-- A double with `places` digits after the point. -/
def fixed (places : Nat) (x : Float) : String :=
  match Binary.ofFloat x with
  | .nan => "NaN"
  | .infinite negative => String.ofList (signChars negative ++ "inf".toList)
  | .finite negative m q =>
    let n := roundHalfEven (m * Nat.pow 2 q.toNat * Nat.pow 10 places) (Nat.pow 2 (-q).toNat)
    String.ofList (signChars negative ++ positional n (-Int.ofNat places))

/-- The text with spaces in front, at least `width` characters. -/
def alignRight (width : Nat) (s : String) : String :=
  String.ofList (List.replicate (width - s.length) ' ' ++ s.toList)

/-- The text with spaces after it, at least `width` characters. -/
def alignLeft (width : Nat) (s : String) : String :=
  String.ofList (s.toList ++ List.replicate (width - s.length) ' ')

end TickBacktest.Decimal
