import TickBacktest.Decimal.Binary

/-! # The shortest decimal that reads back

Every real number between the two midpoints around a double reads as that double; the midpoints
themselves do when the mantissa is even. Among the decimals in this interval the ones with the
fewest digits are looked for, and of these the one nearest to the double.

The search goes through the grids `10 ^ k` from a coarse one downward and tests the two neighbours
of the double on each, in whole numbers; the first grid with a hit wins. -/

namespace TickBacktest.Decimal

/-- Which of two equally near decimals is taken. -/
inductive Tie where
  | away
  | even
  deriving DecidableEq, Repr

/-- The positive number `d * 10 ^ k` or `a * 2 ^ j` brought to one scale: both sides of a
comparison, as whole numbers. -/
def onGrid (a : Nat) (j : Int) (k : Int) : Nat × Nat :=
  (a * Nat.pow 2 j.toNat * Nat.pow 10 (-k).toNat, Nat.pow 2 (-j).toNat * Nat.pow 10 k.toNat)

/-- The hit on the grid `10 ^ k` for the double `m * 2 ^ q`, if there is one. In units of
`2 ^ (q - 2)` the double is `4 * m`, and its interval reaches to `4 * m + 2` above and to
`4 * m - 2` below, or `4 * m - 1` when the double below is only half as far. -/
def hit? (tie : Tie) (m : Nat) (q : Int) (k : Int) : Option Nat :=
  let below := if m = Nat.pow 2 52 ∧ -1074 < q then 4 * m - 1 else 4 * m - 2
  let (value, unit) := onGrid (4 * m) (q - 2) k
  let low := (onGrid below (q - 2) k).1
  let high := (onGrid (4 * m + 2) (q - 2) k).1
  let inside (d : Nat) : Bool :=
    let p := d * unit
    if m % 2 = 0 then low ≤ p && p ≤ high else low < p && p < high
  let d := value / unit
  let under := value % unit
  match inside d, inside (d + 1) with
  | false, false => none
  | true, false => some d
  | false, true => some (d + 1)
  | true, true =>
    if 2 * under < unit then some d
    else if unit < 2 * under then some (d + 1)
    else match tie with
      | .away => some (d + 1)
      | .even => some (if d % 2 = 0 then d else d + 1)

/-- The first hit on the grids `10 ^ k`, `10 ^ (k - 1)`, … -/
def search (tie : Tie) (m : Nat) (q : Int) : Nat → Int → Nat × Int
  | 0, k => (m, k)
  | n + 1, k =>
    match hit? tie m q k with
    | some d => (d, k)
    | none => search tie m q n (k - 1)

/-- The shortest decimal `digits * 10 ^ exponent` that reads back as the double `m * 2 ^ q`, and of
the shortest ones the nearest. A double needs 17 digits at most, and the first grid lies at most
three places above its leading digit. -/
def shortest (tie : Tie) (m : Nat) (q : Int) : Nat × Int :=
  if m = 0 then (0, 0)
  else search tie m q 24 (Int.fdiv ((Int.ofNat (Nat.log2 m + 1) + q) * 30103) 100000 + 1)

end TickBacktest.Decimal
