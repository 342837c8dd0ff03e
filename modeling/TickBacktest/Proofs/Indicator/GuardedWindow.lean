import TickBacktest.Proofs.Guarded
import TickBacktest.Proofs.Indicator.Horizon

/-! # Places and sizes in a window

The windowed functions as a machine with sizes of 64 bits calculates them, with a guard at every
place, slice and difference of sizes: the start of a trailing slice, the first and last values of
momentum, the pairs of changes and the ranks of a quantile. No guard stops them on a series that is
shorter than the largest size; for the quantile that is so where its ranks lie in the window
(`guardedQuantile_of_inside`). -/

namespace TickBacktest.Indicator

open Scalar

section

variable {α : Type}

/-- The last `window` values. -/
def guardedTrailing (xs : List α) (window : ℕ) : Guarded Fault (List α) := do
  if xs.length < window then .error (.fault (.insufficientData window xs.length))
  else sliceFrom xs (← minus xs.length window)

theorem guardedTrailing_eq (xs : List α) (window : ℕ) :
    guardedTrailing xs window = lift (trailing xs window) := by
  unfold guardedTrailing trailing
  by_cases h : xs.length < window
  · rw [if_pos h, if_pos h]
    rfl
  · rw [if_neg h, if_neg h, minus_of_le (Nat.not_lt.mp h), ok_bind,
      sliceFrom_of_le (Nat.sub_le _ _)]
    rfl

/-- The neighbours in a series, two by two. -/
def pairs : List α → List (List α)
  | x :: y :: xs => [x, y] :: pairs (y :: xs)
  | _ => []

variable [Scalar α]

/-! ## Soft functions -/

/-- The exponential average. -/
def guardedExponentialAverage (xs : List α) (window : ℕ) : Guarded Fault (Option α) := do
  if window = 0 ∨ xs.length < window then return none
  else
    let weight : α := 2 / ((window : α) + 1)
    let tail ← sliceFrom xs (← minus xs.length window)
    let seed ← entry tail 0
    let later ← sliceFrom tail 1
    return some (later.foldl (fun m x => weight * x + (1 - weight) * m) seed)

theorem guardedExponentialAverage_eq (xs : List α) (window : ℕ) :
    guardedExponentialAverage xs window = .ok (exponentialAverage xs window) := by
  unfold guardedExponentialAverage exponentialAverage
  by_cases h : window = 0 ∨ xs.length < window
  · rw [if_pos h, if_pos h]
    rfl
  · have hlen : (xs.drop (xs.length - window)).length = window := by
      rw [List.length_drop]
      omega
    rw [if_neg h, if_neg h, minus_of_le (by omega), ok_bind, sliceFrom_of_le (Nat.sub_le _ _),
      ok_bind]
    generalize xs.drop (xs.length - window) = tail at hlen ⊢
    rcases tail with _ | ⟨seed, later⟩
    · exact absurd (.inl hlen.symm) h
    · rw [entry_of_some rfl, ok_bind, sliceFrom_of_le (Nat.le_add_left 1 _), ok_bind]
      rfl

/-- The mean of the last spreads. -/
def guardedAverageRange (spreads : List α) (window : ℕ) : Guarded Fault (Option α) := do
  if window = 0 ∨ spreads.length < window then return none
  else
    let tail ← sliceFrom spreads (← minus spreads.length window)
    return some (Scalar.sum tail / (window : α))

theorem guardedAverageRange_eq (spreads : List α) (window : ℕ) :
    guardedAverageRange spreads window = .ok (averageRange spreads window) := by
  unfold guardedAverageRange averageRange
  by_cases h : window = 0 ∨ spreads.length < window
  · rw [if_pos h, if_pos h]
    rfl
  · rw [if_neg h, if_neg h, minus_of_le (by omega), ok_bind, sliceFrom_of_le (Nat.sub_le _ _),
      ok_bind]
    rfl

/-- The relative change over the window. -/
def guardedMomentum (xs : List α) (window : ℕ) : Guarded Fault (Option α) := do
  match sum? window 1 with
  | none => return none
  | some needed =>
    if xs.length < needed then return none
    else
      let latest ← entry xs (← minus xs.length 1)
      let base ← entry xs (← minus (← minus xs.length 1) window)
      if base == 0 then .error (.fault (.arithmetic .zeroBase))
      else return some ((latest - base) / base)

theorem guardedMomentum_eq {xs : List α} (hxs : xs.length ≤ Decimal.maxSize) (window : ℕ) :
    guardedMomentum xs window = lift (momentum xs window) := by
  unfold guardedMomentum momentum sum?
  by_cases h : xs.length < window + 1
  · rw [if_pos h]
    by_cases hsum : window + 1 ≤ Decimal.maxSize
    · rw [if_pos hsum]
      exact if_pos h
    · rw [if_neg hsum]
      rfl
  · have hlatest : (xs.drop (xs.length - (window + 1))).getLast? = xs[xs.length - 1]? := by
      rw [List.getLast?_drop, if_neg (by omega), List.getLast?_eq_getElem?]
    have hbase : (xs.drop (xs.length - (window + 1))).head? = xs[xs.length - 1 - window]? := by
      rw [List.head?_drop, Nat.sub_sub, Nat.add_comm 1 window]
    obtain ⟨latest, hl⟩ : ∃ latest, xs[xs.length - 1]? = some latest :=
      ⟨_, List.getElem?_eq_getElem (by omega)⟩
    obtain ⟨base, hb⟩ : ∃ base, xs[xs.length - 1 - window]? = some base :=
      ⟨_, List.getElem?_eq_getElem (by omega)⟩
    rw [if_neg h, if_pos (by omega)]
    dsimp only
    rw [if_neg h, hlatest, hbase, hl, hb, minus_of_le (by omega), ok_bind, entry_of_some hl,
      ok_bind, ok_bind, minus_of_le (by omega), ok_bind, entry_of_some hb, ok_bind]
    dsimp only
    split_ifs
    · rfl
    · rfl

/-! ## Changes -/

/-- The gains and losses with one more change. -/
def addChange (totals : α × α) (change : α) : α × α :=
  if 0 < change then (totals.1 + change, totals.2)
  else if change < 0 then (totals.1, totals.2 - change)
  else totals

/-- The gains and losses with the change between two neighbours. -/
def guardedChange (totals : α × α) (pair : List α) : Guarded Fault (α × α) := do
  let later ← entry pair 1
  let earlier ← entry pair 0
  return addChange totals (later - earlier)

theorem gainsAndLosses_eq (cs : List α) : gainsAndLosses cs = cs.foldl addChange (0, 0) :=
  rfl

/-- The pairs of neighbours have a first and a second element. -/
theorem foldlM_guardedChange (xs : List α) : ∀ totals : α × α,
    (pairs xs).foldlM guardedChange totals = .ok ((changes xs).foldl addChange totals) := by
  induction xs with
  | nil => exact fun _ => rfl
  | cons x xs ih =>
    intro totals
    rcases xs with _ | ⟨y, xs⟩
    · rfl
    · have hstep : guardedChange totals [x, y] = .ok (addChange totals (y - x)) := rfl
      rw [pairs, List.foldlM_cons, hstep, ok_bind, ih]
      rfl

/-- The relative strength. -/
def guardedStrength (xs : List α) (window : ℕ) : Guarded Fault α := do
  match sum? window 1 with
  | none => .error (.fault (.insufficientData window xs.length))
  | some needed =>
    let prices ← guardedTrailing xs needed
    let totals ← (pairs prices).foldlM guardedChange (0, 0)
    let gain := totals.1 / (window : α)
    let loss := totals.2 / (window : α)
    if loss == 0 then return 100
    else return 100 - 100 / (1 + gain / loss)

theorem guardedStrength_eq {xs : List α} {window : ℕ} (hxs : xs.length < Decimal.maxSize)
    (hwindow : window ≤ Decimal.maxSize) :
    guardedStrength xs window = lift (relativeStrength xs window) := by
  unfold guardedStrength relativeStrength sum? withLag
  by_cases h : window + 1 ≤ Decimal.maxSize
  · rw [if_pos h, Nat.min_eq_left h]
    dsimp only
    rw [guardedTrailing_eq]
    rcases trailing xs (window + 1) with fault | prices
    · rfl
    · rw [lift_ok, ok_bind, foldlM_guardedChange, ok_bind, ok_bind, gainsAndLosses_eq]
      split_ifs
      · rfl
      · rfl
  · -- the window is the largest size, and no series is that long
    have hmax : window = Decimal.maxSize := by omega
    rw [if_neg h, Nat.min_eq_right (by omega), trailing_of_lt hxs, hmax]
    rfl

/-! ## Quantiles -/

/-- The ranks of a fraction when the last place is `last`. -/
def ranks (fraction : α) (last : ℕ) : ℕ × ℕ :=
  (floor (fraction * (last : α)), ceil (fraction * (last : α)))

/-- The quantile of sorted values at a fraction, whose ranks are read as `read` says. -/
def guardedQuantile (read : α → ℕ → ℕ × ℕ) (sorted : List α) (fraction : α) :
    Guarded Fault α := do
  let last ← minus sorted.length 1
  let lower ← entry sorted (read fraction last).1
  let upper ← entry sorted (read fraction last).2
  return lower + (fraction * (last : α) - ((read fraction last).1 : α)) * (upper - lower)

/-- The ranks of a fraction among so many places: the lower one is not above the upper one, and both
are places. -/
def Inside (r : ℕ × ℕ) (length : ℕ) : Prop := r.1 ≤ r.2 ∧ r.2 < length

theorem guardedQuantile_of_inside {read : α → ℕ → ℕ × ℕ} {sorted : List α} {fraction : α}
    (h : Inside (read fraction (sorted.length - 1)) sorted.length) :
    ∃ x, guardedQuantile read sorted fraction = .ok x := by
  obtain ⟨hle, hlt⟩ := h
  have hlast : (minus sorted.length 1 : Guarded Fault ℕ) = .ok (sorted.length - 1) :=
    minus_of_le (by omega)
  have hlower := List.getElem?_eq_getElem (l := sorted) (Nat.lt_of_le_of_lt hle hlt)
  have hupper := List.getElem?_eq_getElem (l := sorted) hlt
  unfold guardedQuantile
  rw [hlast, ok_bind, entry_of_some hlower, ok_bind, entry_of_some hupper, ok_bind]
  exact ⟨_, rfl⟩

/-- With the ranks of the scalars themselves, what is found is the quantile. -/
theorem quantile_of_guarded {sorted : List α} {fraction x : α}
    (h : guardedQuantile ranks sorted fraction = .ok x) : quantile sorted fraction = x := by
  unfold guardedQuantile at h
  obtain ⟨last, hlast, h⟩ := bind_ok_iff.mp h
  obtain ⟨lower, hl, h⟩ := bind_ok_iff.mp h
  obtain ⟨upper, hu, h⟩ := bind_ok_iff.mp h
  have hlower : sorted[floor (fraction * (last : α))]? = some lower := entry_ok_iff.mp hl
  have hupper : sorted[ceil (fraction * (last : α))]? = some upper := entry_ok_iff.mp hu
  unfold quantile
  dsimp only
  rw [← pure_ok_iff.mp h, eq_of_minus hlast, List.getD_eq_getElem?_getD,
    List.getD_eq_getElem?_getD, hlower, hupper]
  rfl

end

end TickBacktest.Indicator
