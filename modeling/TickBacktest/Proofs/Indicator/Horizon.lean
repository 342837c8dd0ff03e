import TickBacktest.Indicator.Call
import TickBacktest.Proofs.Indicator.Assignment
import TickBacktest.Proofs.Market.Windows
import TickBacktest.Proofs.Outcome

/-! # How far back a function reads

A windowed function reads the last values of its series, as many as its window says or one more
(`Function.reach`), and where there are too few of them it tells how many there are. Series with the
same last values therefore give the same value or the same fault (`windowedValue_congr_reach`), and
so do calls (`Bound.value_congr`).

Faults have three reasons: the arithmetic, a series that is too short, and numbers out of order
(`windowedValue_error`). -/

namespace TickBacktest.Indicator

open Market (Variable History eq_or_le_of_rtake_eq rtake_congr)

section

variable {α : Type} {xs ys : List α} {k n : ℕ}

theorem trailing_of_le (h : n ≤ xs.length) : trailing xs n = .ok (xs.rtake n) :=
  if_neg (Nat.not_lt.mpr h)

theorem trailing_of_lt (h : xs.length < n) :
    trailing xs n = .error (.insufficientData n xs.length) :=
  if_pos h

theorem trailing_error_iff {fault : Fault} : trailing xs n = .error fault ↔
    xs.length < n ∧ fault = .insufficientData n xs.length := by
  by_cases h : xs.length < n
  · rw [trailing_of_lt h, Except.error.injEq, eq_comm, and_iff_right h]
  · rw [trailing_of_le (Nat.not_lt.mp h)]
    exact ⟨fun he => (by cases he), fun he => absurd he.1 h⟩

/-- The last values of a series, and how many there are where they are too few. -/
theorem trailing_congr (h : xs.rtake k = ys.rtake k) (hn : n ≤ k) :
    trailing xs n = trailing ys n := by
  rcases eq_or_le_of_rtake_eq h with rfl | ⟨hx, hy⟩
  · rfl
  · rw [trailing_of_le (hn.trans hx), trailing_of_le (hn.trans hy), rtake_congr h hn]

variable [Scalar α]

theorem exponentialAverage_congr (h : xs.rtake k = ys.rtake k) (hn : n ≤ k) :
    exponentialAverage xs n = exponentialAverage ys n := by
  rcases eq_or_le_of_rtake_eq h with rfl | ⟨hx, hy⟩
  · rfl
  · have hend : xs.drop (xs.length - n) = ys.drop (ys.length - n) := rtake_congr h hn
    unfold exponentialAverage
    rw [hend]
    simp only [Nat.not_lt.mpr (hn.trans hx), Nat.not_lt.mpr (hn.trans hy)]

theorem averageRange_congr (h : xs.rtake k = ys.rtake k) (hn : n ≤ k) :
    averageRange xs n = averageRange ys n := by
  rcases eq_or_le_of_rtake_eq h with rfl | ⟨hx, hy⟩
  · rfl
  · have hend : xs.drop (xs.length - n) = ys.drop (ys.length - n) := rtake_congr h hn
    unfold averageRange
    rw [hend]
    simp only [Nat.not_lt.mpr (hn.trans hx), Nat.not_lt.mpr (hn.trans hy)]

theorem momentum_congr (h : xs.rtake k = ys.rtake k) (hn : n < k) :
    momentum xs n = momentum ys n := by
  rcases eq_or_le_of_rtake_eq h with rfl | ⟨hx, hy⟩
  · rfl
  · have hend : xs.drop (xs.length - (n + 1)) = ys.drop (ys.length - (n + 1)) :=
      rtake_congr h (Nat.succ_le_of_lt hn)
    unfold momentum
    dsimp only
    rw [hend, if_neg (by omega), if_neg (by omega)]

end

/-- A window is a size. -/
theorem le_maxSize_of_window? {x : Float} {window : ℕ} (h : window? x = some window) :
    window ≤ Decimal.maxSize := by
  unfold window? at h
  split at h
  · cases h
    exact Nat.le_of_lt_succ (UInt64.toNat_lt _)
  · cases h

/-- The number of values of its series without which a function may fail. -/
def Function.need (f : Function) (window : ℕ) : ℕ := if f = .rsi then withLag window else window

/-- What a function needs is a size if the window is. -/
theorem need_le (f : Function) {window : ℕ} (h : window ≤ Decimal.maxSize) :
    f.need window ≤ min (window + 1) Decimal.maxSize := by
  unfold Function.need withLag
  split_ifs
  · exact Nat.le_refl _
  · exact Nat.le_min.mpr ⟨Nat.le_succ _, h⟩

theorem withLag_le (window : ℕ) : withLag window ≤ window + 1 := Nat.min_le_left _ _

/-- **The number of values that a function reads**: one more than its window where it looks at
changes. -/
def Function.reach (f : Function) (window : ℕ) : ℕ :=
  if f = .rsi ∨ f = .momentum then window + 1 else window

theorem reach_le (f : Function) (window : ℕ) : f.reach window ≤ window + 1 := by
  unfold Function.reach
  split_ifs <;> omega

/-- Every function needs some value of its series. -/
theorem need_pos (f : Function) {window : ℕ} (h : 0 < window) : 0 < f.need window := by
  have hsize : 0 < Decimal.maxSize := by decide
  unfold Function.need withLag
  split_ifs <;> omega

/-- No function fails for want of more values than it reads. -/
theorem need_le_reach (f : Function) (window : ℕ) : f.need window ≤ f.reach window := by
  have hlag := withLag_le window
  unfold Function.need Function.reach
  split_ifs with hrsi hlagged hlagged
  · exact hlag
  · exact absurd (.inl hrsi) hlagged
  · omega
  · exact le_rfl

/-- **A windowed function makes its value of the last values that it reads.** -/
theorem windowedValue_congr_reach (b : Bound) {window : ℕ} {xs ys : List Float}
    (h : xs.rtake (b.function.reach window) = ys.rtake (b.function.reach window)) :
    windowedValue b window xs = windowedValue b window ys := by
  unfold windowedValue
  rcases hf : b.function
  all_goals rw [hf] at h
  case rsi =>
    have htrailing : trailing xs (withLag window) = trailing ys (withLag window) :=
      trailing_congr h (withLag_le window)
    unfold relativeStrength
    rw [htrailing]
  case momentum => exact momentum_congr h (Nat.lt_succ_self window)
  case ema =>
    have hema : exponentialAverage xs window = exponentialAverage ys window :=
      exponentialAverage_congr h le_rfl
    dsimp only
    rw [hema]
  case atr =>
    have hatr : averageRange xs window = averageRange ys window := averageRange_congr h le_rfl
    dsimp only
    rw [hatr]
  -- the others look at nothing but the window itself
  all_goals
    have htrailing : trailing xs window = trailing ys window := trailing_congr h le_rfl
  case sma | mean => unfold movingAverage; rw [htrailing]
  case sum => unfold movingSum; rw [htrailing]
  case min => unfold lowest; rw [htrailing]
  case max => unfold highest; rw [htrailing]
  case std => unfold movingDeviation; rw [htrailing]
  case percentile => unfold percentile; rw [htrailing]
  case bbwidth => unfold bandWidth; rw [htrailing]

/-- No function reads more than one value beside its window. -/
theorem windowedValue_congr (b : Bound) {window : ℕ} {xs ys : List Float}
    (h : xs.rtake (window + 1) = ys.rtake (window + 1)) :
    windowedValue b window xs = windowedValue b window ys :=
  windowedValue_congr_reach b (rtake_congr h (reach_le b.function window))

/-- The variable whose series a call reads: the range of quotes always reads the spread. -/
def Bound.source (b : Bound) (v : Variable) : Variable := if b.function = .atr then .spread else v

/-- **A call reads the series of one variable**, and of it only the last values. -/
theorem Bound.value_congr (b : Bound) {history history' : History Float}
    (h : b.function.isWindowed → ∀ x window v, b.number "window" = .ok (some x) →
      window? x = some window → b.variableNamed = .ok v →
        (history (b.source v)).map (·.rtake (window + 1)) =
          (history' (b.source v)).map (·.rtake (window + 1))) :
    b.value history = b.value history' := by
  unfold Bound.value
  by_cases hs : b.function.isScalar
  · rw [if_pos hs, if_pos hs]
  · have hf := isWindowed_iff.mpr hs
    rw [if_neg hs, if_neg hs]
    rcases hx : b.number "window" with e | _ | x
    · rfl
    · rfl
    rw [mapError_ok, ok_bind, ok_bind]
    dsimp only
    rcases hw : window? x with _ | window
    · rfl
    dsimp only
    rcases hv : b.variableNamed with e | v
    · rfl
    have hlast := h hf x window v hx hw hv
    unfold source at hlast
    rw [mapError_ok, ok_bind, ok_bind]
    rcases hh : history (if b.function = .atr then .spread else v) with _ | xs
    · rw [hh] at hlast
      rw [Option.map_eq_none_iff.mp hlast.symm]
    · rw [hh] at hlast
      obtain ⟨ys, hys, hend⟩ := Option.map_eq_some_iff.mp hlast.symm
      rw [hys]
      exact windowedValue_congr b hend.symm

/-! ## Faults -/

/-- The numbers that a call has besides its window are in order. -/
structure Bound.OptionsFit (b : Bound) : Prop where
  fraction : b.function = .percentile →
    ∃ x, b.number "pct" = .ok x ∧ ∀ y, x = some y → 0 ≤ y ∧ y ≤ 1
  spans : b.function = .bbwidth → ∃ x, b.number "num_std" = .ok x

section

variable {b : Bound} {window : ℕ} {xs : List Float} {fault : Fault}

theorem momentum_error (h : momentum xs window = .error fault) : ∃ a, fault = .arithmetic a := by
  unfold momentum at h
  split at h
  · cases h
  · dsimp only at h
    split at h
    · split at h
      · cases h
        exact ⟨_, rfl⟩
      · cases h
    · cases h

theorem relativeStrength_error (h : relativeStrength xs window = .error fault) :
    trailing xs (withLag window) = .error fault := by
  unfold relativeStrength at h
  rcases bind_error_iff.mp h with h | ⟨w, -, h⟩
  · exact h
  · dsimp only at h
    split at h <;> cases h

theorem bandWidth_error {spans : Float} (h : bandWidth xs window spans = .error fault) :
    trailing xs window = .error fault ∨ ∃ a, fault = .arithmetic a := by
  unfold bandWidth at h
  rcases bind_error_iff.mp h with h | ⟨w, -, h⟩
  · exact .inl h
  · dsimp only at h
    split at h
    · cases h
      exact .inr ⟨_, rfl⟩
    · cases h

/-- **Why a windowed function fails**: the arithmetic has no answer, its series is too short, or a
number that it is given besides the window is out of order. -/
theorem windowedValue_error (hwindowed : b.function.isWindowed)
    (h : windowedValue b window xs = .error fault) :
    (∃ a, fault = .arithmetic a) ∨
      trailing xs (b.function.need window) = .error fault ∨
      (∃ m, fault = .misuse m) ∧ ¬ b.OptionsFit := by
  unfold windowedValue at h
  rcases hf : b.function
  all_goals rw [hf] at h hwindowed
  case abs | sqrt | exp | log => cases hwindowed
  case sma | mean | sum | min | max | std =>
    exact .inr (.inl (bind_pure_error_iff.mp (bind_pure_error_iff.mp h)))
  case rsi => exact .inr (.inl (relativeStrength_error (bind_pure_error_iff.mp h)))
  case momentum => exact .inl (momentum_error h)
  case percentile =>
    rcases bind_error_iff.mp h with h | ⟨x, hx, h⟩
    · obtain ⟨m, hm, rfl⟩ := mapError_error_iff.mp h
      refine .inr (.inr ⟨⟨m, rfl⟩, fun hfit => ?_⟩)
      obtain ⟨y, hy, -⟩ := hfit.fraction hf
      rw [hm] at hy
      cases hy
    · obtain _ | fraction := x
      · cases h
      · dsimp only at h
        split at h
        · exact .inr (.inl (bind_pure_error_iff.mp (bind_pure_error_iff.mp h)))
        · next hout =>
          cases h
          refine .inr (.inr ⟨⟨_, rfl⟩, fun hfit => hout ?_⟩)
          obtain ⟨y, hy, hbetween⟩ := hfit.fraction hf
          rw [mapError_ok_iff.mp hx] at hy
          cases hy
          exact hbetween _ rfl
  case bbwidth =>
    rcases bind_error_iff.mp h with h | ⟨x, hx, h⟩
    · obtain ⟨m, hm, rfl⟩ := mapError_error_iff.mp h
      refine .inr (.inr ⟨⟨m, rfl⟩, fun hfit => ?_⟩)
      obtain ⟨y, hy⟩ := hfit.spans hf
      rw [hm] at hy
      cases hy
    · obtain _ | spans := x
      · cases h
      · rcases bandWidth_error (bind_pure_error_iff.mp h) with h | h
        · exact .inr (.inl h)
        · exact .inl h
  all_goals cases h

/-- A function of a number does not fail on a number. -/
theorem Bound.value_of_scalar {history : History Float} {x : Option Float}
    (hf : b.function.isScalar) (hx : b.number "x" = .ok x) : ∃ y, b.value history = .ok y := by
  unfold Bound.value
  rw [if_pos hf, hx]
  rcases x with _ | x
  · exact ⟨none, rfl⟩
  · exact ⟨_, rfl⟩

/-- A call of a windowed function whose window is bound has the value that the function has over the
series it reads. -/
theorem Bound.value_of_window {history : History Float} {x : Float} {v : Variable}
    (hf : b.function.isWindowed) (hx : b.number "window" = .ok (some x))
    (hw : window? x = some window) (hv : b.variableNamed = .ok v)
    (hxs : history (b.source v) = some xs) : b.value history = windowedValue b window xs := by
  have hscalar := isWindowed_iff.mp hf
  unfold source at hxs
  unfold Bound.value
  rw [if_neg hscalar, hx, mapError_ok, ok_bind]
  dsimp only
  rw [hw]
  dsimp only
  rw [hv, mapError_ok, ok_bind, hxs]

/-- **A call tells that data is insufficient only when its series is too short**, if every variable
has a series. -/
theorem Bound.value_insufficientData {history : History Float} {n m : ℕ}
    (hall : ∀ v, ∃ xs, history v = some xs)
    (h : b.value history = .error (.insufficientData n m)) :
    b.function.isWindowed ∧ ∃ x window v xs, b.number "window" = .ok (some x) ∧
      window? x = some window ∧ b.variableNamed = .ok v ∧ history (b.source v) = some xs ∧
      xs.length < b.function.need window := by
  -- what goes wrong while binding is never about data
  have hno : ∀ {β : Type} {x : Except Misuse β},
      x.mapError Fault.misuse ≠ .error (.insufficientData n m) := by
    intro β x hx
    obtain ⟨_, -, he⟩ := mapError_error_iff.mp hx
    cases he
  unfold Bound.value at h
  split at h
  · rcases bind_error_iff.mp h with h | ⟨x, -, h⟩
    · exact absurd h hno
    · rcases x with _ | x <;> cases h
  · next hs =>
    have hf := isWindowed_iff.mpr hs
    rcases bind_error_iff.mp h with h | ⟨x, hx, h⟩
    · exact absurd h hno
    obtain _ | x := x
    · cases h
    dsimp only at h
    rcases hw : window? x with _ | window
    · rw [hw] at h
      cases h
    rw [hw] at h
    rcases bind_error_iff.mp h with h | ⟨v, hv, h⟩
    · exact absurd h hno
    obtain ⟨xs, hxs⟩ := hall (b.source v)
    rw [show history (if b.function = .atr then .spread else v) = some xs from hxs] at h
    refine ⟨hf, x, window, v, xs, mapError_ok_iff.mp hx, hw, mapError_ok_iff.mp hv, hxs, ?_⟩
    rcases windowedValue_error hf h with ⟨_, he⟩ | he | ⟨⟨_, he⟩, -⟩
    · cases he
    · exact (trailing_error_iff.mp he).1
    · cases he

end

end TickBacktest.Indicator
