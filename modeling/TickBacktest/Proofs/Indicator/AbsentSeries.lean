import TickBacktest.Proofs.Indicator.DataNeed
import TickBacktest.Proofs.Scalar.Doubles

/-! # Variables without a series

A variable that has no series has no values, and so has one with the empty series. Calls tell the
two apart, for they look whether there is a series before they ask what the function needs. Without
one a hard function fails for want of its whole window (`Bound.value_of_absent`); with an empty one
it fails for want of what it needs, but not before the other numbers it is given have been looked at
(`windowedValue_of_lt_need`, `windowedValue_ne_of_not_usable`).

So the two count as the same except where the relative strength wants one value more than its
window, and where the fraction of a quantile or the span of the bands cannot be used
(`absent_counts_as_empty_iff`). -/

namespace TickBacktest.Indicator

open Market (Variable History)

/-- The second history gives the empty series to variables that have none in the first. -/
def FilledIn (sparse full : History Float) : Prop :=
  ∀ v, full v = sparse v ∨ sparse v = none ∧ full v = some []

/-- **What a call gets to read**: it names the variable `v` and a window. -/
structure Bound.Reads (b : Bound) (v : Variable) (window : ℕ) : Prop where
  windowed : b.function.isWindowed
  named : b.variableNamed = .ok v
  window_eq : ∃ x, b.number "window" = .ok (some x) ∧ window? x = some window

/-- A window is not empty. -/
theorem window_pos {x : Float} {window : ℕ} (h : window? x = some window) : 0 < window := by
  unfold window? at h
  split at h
  · next hx =>
    obtain ⟨hone, hwhole, -⟩ := hx
    cases h
    refine Nat.pos_of_ne_zero fun hzero => ?_
    have hbits : x.toUInt64 = 0 := UInt64.toNat_inj.mp hzero
    unfold isWhole at hwhole
    rw [hbits] at hwhole
    exact Doubles.not_beq_of_zero rfl Doubles.unpacks_one hone hwhole
  · cases h

section

variable {b : Bound} {v : Variable} {window : ℕ} {history sparse full : History Float}

/-! ## Without a series -/

/-- Without its series a hard function fails for want of its window. -/
theorem Bound.value_of_absent (h : b.Reads v window) (hnone : history (b.source v) = none) :
    b.value history =
      if b.function.isSoft then .ok none else .error (.insufficientData window 0) := by
  obtain ⟨x, hx, hw⟩ := h.window_eq
  unfold source at hnone
  unfold Bound.value
  rw [if_neg (isWindowed_iff.mp h.windowed), hx, mapError_ok, ok_bind]
  dsimp only
  rw [hw]
  dsimp only
  rw [h.named, mapError_ok, ok_bind, hnone]
  rfl

/-! ## With the empty series -/

/-- A number that cannot be used is noticed before any lack of data. -/
theorem windowedValue_ne_of_not_usable (hopt : ¬ b.OptionsUsable) {xs : List Float}
    (needed available : ℕ) :
    windowedValue b window xs ≠ .error (.insufficientData needed available) := by
  intro hlacks
  have hmisuse : ∀ {β : Type} {x : Except Misuse β},
      x.mapError Fault.misuse ≠ .error (.insufficientData needed available) := by
    intro β x hx
    obtain ⟨_, -, he⟩ := mapError_error_iff.mp hx
    cases he
  unfold windowedValue at hlacks
  refine hopt ⟨fun hf => ?_, fun hf => ?_⟩
  · rw [hf] at hlacks
    rcases bind_error_iff.mp hlacks with hlacks | ⟨x, hx, hlacks⟩
    · exact absurd hlacks hmisuse
    · obtain _ | fraction := x
      · cases hlacks
      · dsimp only at hlacks
        split at hlacks
        · next hbetween => exact ⟨fraction, mapError_ok_iff.mp hx, hbetween⟩
        · cases hlacks
  · rw [hf] at hlacks
    rcases bind_error_iff.mp hlacks with hlacks | ⟨x, hx, hlacks⟩
    · exact absurd hlacks hmisuse
    · obtain _ | spans := x
      · cases hlacks
      · exact ⟨spans, mapError_ok_iff.mp hx⟩

/-! ## The two compared -/

/-- The relative strength alone needs more than its window, unless that is the largest size. -/
theorem need_eq_self_iff {f : Function} :
    f.need window = window ↔ (f = .rsi → window = Decimal.maxSize) := by
  unfold Function.need withLag
  split_ifs with hf
  · rw [imp_iff_right hf]
    omega
  · exact iff_of_true rfl fun h => absurd h hf

theorem optionsUsable_of_soft (hsoft : b.function.isSoft = true) : b.OptionsUsable := by
  constructor
  all_goals
    intro hf
    rw [hf] at hsoft
    cases hsoft

/-- **When a call answers the same for no series and for the empty one.** -/
theorem Bound.value_eq_iff (h : b.Reads v window) (hnone : sparse (b.source v) = none)
    (hnil : full (b.source v) = some []) : b.value sparse = b.value full ↔
      (b.function = .rsi → window = Decimal.maxSize) ∧ b.OptionsUsable := by
  obtain ⟨x, hx, hw⟩ := h.window_eq
  have hpos := need_pos b.function (window_pos hw)
  rw [Bound.value_of_absent h hnone, b.value_of_window h.windowed hx hw h.named hnil]
  by_cases hsoft : b.function.isSoft = true
  · have hshort : ([] : List Float).length < b.function.reach window :=
      Nat.lt_of_lt_of_le hpos (need_le_reach b.function window)
    have hrsi : b.function ≠ .rsi := fun hf => by
      rw [hf] at hsoft
      cases hsoft
    rw [if_pos hsoft, windowedValue_of_soft_short hsoft hshort]
    exact iff_of_true rfl ⟨fun hf => absurd hf hrsi, optionsUsable_of_soft hsoft⟩
  · rw [if_neg hsoft]
    by_cases hopt : b.OptionsUsable
    · have hshort : ([] : List Float).length < b.function.need window := hpos
      rw [windowedValue_of_lt_need h.windowed hopt (by simpa using hsoft) hshort,
        and_iff_left hopt, ← need_eq_self_iff, Except.error.injEq, Fault.insufficientData.injEq,
        eq_comm]
      exact and_iff_left rfl
    · have hne : windowedValue b window [] ≠ .error (.insufficientData window 0) :=
        windowedValue_ne_of_not_usable hopt window 0
      exact iff_of_false hne.symm fun h => hopt h.2

/-- **A variable without a series counts as one with the empty series**, but for two things: the
relative strength tells of the lack of one value less, and a quantile or a band width does not
notice that another number of the call cannot be used. -/
theorem absent_counts_as_empty_iff (h : FilledIn sparse full) (f : Function)
    (args : List Argument) (keywords : List (String × Argument)) :
    call f args keywords sparse = call f args keywords full ↔
      ∀ b v window, bind f args keywords = .ok b → b.Reads v window →
        sparse (b.source v) ≠ full (b.source v) →
          (f = .rsi → window = Decimal.maxSize) ∧ b.OptionsUsable := by
  unfold call
  rcases hb : bind f args keywords with e | b
  · exact iff_of_true rfl fun b v window hb' => by cases hb'
  obtain rfl := function_of_bind hb
  rw [mapError_ok, ok_bind, ok_bind]
  constructor
  · intro heq b' v window hb' hreads hne
    cases hb'
    obtain ⟨hnone, hnil⟩ := (h (b.source v)).resolve_left hne.symm
    exact (Bound.value_eq_iff hreads hnone hnil).mp heq
  · intro hall
    by_cases hdiffer : ∃ v window, b.Reads v window ∧ sparse (b.source v) ≠ full (b.source v)
    · obtain ⟨v, window, hreads, hne⟩ := hdiffer
      obtain ⟨hnone, hnil⟩ := (h (b.source v)).resolve_left hne.symm
      exact (Bound.value_eq_iff hreads hnone hnil).mpr (hall b v window rfl hreads hne)
    · -- the series that the call reads is the same in both
      refine b.value_congr fun hwindowed x window v hx hw hv => ?_
      by_contra hne
      refine hdiffer ⟨v, window, ⟨hwindowed, hv, x, hx, hw⟩, fun heq => hne ?_⟩
      rw [heq]

end

/-- No variable has a series. -/
def nothingKnown : History Float := fun _ => none

/-- Volumes have the empty series. -/
def noVolumes : History Float := fun v => if v = .volume then some [] else none

theorem absent_counts_as_empty_sum : FilledIn nothingKnown noVolumes ∧
    call .sum [.series .volume 0, .scalar (some 3)] [] nothingKnown =
      call .sum [.series .volume 0, .scalar (some 3)] [] noVolumes := by
  have hfilled : FilledIn nothingKnown noVolumes := by
    intro v
    by_cases hv : v = .volume
    · exact .inr ⟨rfl, if_pos hv⟩
    · exact .inl (if_neg hv)
  refine ⟨hfilled, (absent_counts_as_empty_iff hfilled .sum _ []).mpr ?_⟩
  intro b v window hb _ _
  cases hb
  exact ⟨fun h => (by cases h), fun h => (by cases h), fun h => (by cases h)⟩

/-- **A call may tell no series from the empty one**: the relative strength says that one value less
is needed, a fraction that is none is passed over, and so is a number of deviations that is
indeterminate. -/
theorem absent_is_not_empty :
    (call .rsi [.series .volume 0, .scalar (some 5)] [] nothingKnown =
        .error (.insufficientData 5 0) ∧
      call .rsi [.series .volume 0, .scalar (some 5)] [] noVolumes =
        .error (.insufficientData 6 0)) ∧
    (call .percentile [.series .volume 0, .scalar (some 5), .scalar (some 2)] [] nothingKnown =
        .error (.insufficientData 5 0) ∧
      call .percentile [.series .volume 0, .scalar (some 5), .scalar (some 2)] [] noVolumes =
        .error (.misuse (.badFraction 2))) ∧
    (call .bbwidth [.series .volume 0, .scalar (some 5), .scalar none] [] nothingKnown =
        .error (.insufficientData 5 0) ∧
      call .bbwidth [.series .volume 0, .scalar (some 5), .scalar none] [] noVolumes =
        .ok none) :=
  ⟨⟨rfl, rfl⟩, ⟨rfl, rfl⟩, rfl, rfl⟩

end TickBacktest.Indicator
