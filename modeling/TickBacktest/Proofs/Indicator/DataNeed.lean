import TickBacktest.Proofs.Indicator.Binding
import TickBacktest.Proofs.Indicator.Horizon

/-! # How much data a function needs

A windowed function needs as many values as it reads (`Function.reach`). The functions see to this
in three ways, by `trailing`, by `withLag` and by tests of the length, but one law holds of them
all: with fewer values a hard function fails and tells both numbers (`windowedValue_of_short`), and
a soft one has no value (`windowedValue_of_soft_short`); with enough of them no function lacks data
(`windowedValue_of_enough`). A hard function gives way only where its window is the largest size,
for there is no size for one value more; what it then asks for is `Function.need`
(`windowedValue_of_lt_need`).

Calls take this over from the functions (`lacks_data_exactly_when_short`), if what they bind is in
order (`Bound.InOrder`). -/

namespace TickBacktest.Indicator

open Market (Variable History)

/-- **What a call has bound is in order**: it names the variable `v` and a window, which is not the
largest size, and what else the function asks for can be used. -/
structure Bound.InOrder (b : Bound) (v : Variable) (window : ℕ) : Prop where
  windowed : b.function.isWindowed
  named : b.variableNamed = .ok v
  window_eq : ∃ x, b.number "window" = .ok (some x) ∧ window? x = some window
  window_lt : window < Decimal.maxSize
  fraction : b.function = .percentile → ∃ x, b.number "pct" = .ok (some x) ∧ 0 ≤ x ∧ x ≤ 1
  spans : b.function = .bbwidth → ∃ x, b.number "num_std" = .ok (some x)

/-- **What a function asks for besides its window can be used.** -/
structure Bound.OptionsUsable (b : Bound) : Prop where
  fraction : b.function = .percentile → ∃ x, b.number "pct" = .ok (some x) ∧ 0 ≤ x ∧ x ≤ 1
  spans : b.function = .bbwidth → ∃ x, b.number "num_std" = .ok (some x)

section

variable {b : Bound} {v : Variable} {window : ℕ} {xs : List Float}

theorem Bound.InOrder.optionsFit (h : b.InOrder v window) : b.OptionsFit where
  fraction hf := by
    obtain ⟨x, hx, hbetween⟩ := h.fraction hf
    refine ⟨some x, hx, fun y hy => ?_⟩
    cases hy
    exact hbetween
  spans hf := by
    obtain ⟨x, hx⟩ := h.spans hf
    exact ⟨some x, hx⟩

theorem Bound.InOrder.optionsUsable (h : b.InOrder v window) : b.OptionsUsable :=
  ⟨h.fraction, h.spans⟩

/-- A hard function reads as much as it needs, unless its window is the largest size. -/
theorem need_eq_reach {f : Function} (hhard : f.isSoft = false) (h : window < Decimal.maxSize) :
    f.need window = f.reach window := by
  unfold Function.need Function.reach withLag
  cases f
  case momentum => cases hhard
  case rsi =>
    rw [if_pos rfl, if_pos (.inl rfl)]
    omega
  all_goals rfl

/-! ## Short series -/

/-- **A hard function fails on a series that is shorter than it needs**, and tells how much that is
and how much there is. -/
theorem windowedValue_of_lt_need (hwindowed : b.function.isWindowed) (hopt : b.OptionsUsable)
    (hhard : b.function.isSoft = false) (hshort : xs.length < b.function.need window) :
    windowedValue b window xs = .error (.insufficientData (b.function.need window) xs.length) := by
  have htrailing := trailing_of_lt hshort
  unfold windowedValue
  rcases hf : b.function
  all_goals rw [hf] at hwindowed hhard htrailing
  case ema | momentum | atr => cases hhard
  case abs | sqrt | exp | log => cases hwindowed
  case rsi =>
    replace htrailing : trailing xs (withLag window) =
      .error (.insufficientData (withLag window) xs.length) := htrailing
    unfold relativeStrength
    rw [htrailing]
    rfl
  -- the others need as many values as their window says
  all_goals
    replace htrailing : trailing xs window = .error (.insufficientData window xs.length) :=
      htrailing
  case sma | mean => unfold movingAverage; rw [htrailing]; rfl
  case sum => unfold movingSum; rw [htrailing]; rfl
  case min => unfold lowest; rw [htrailing]; rfl
  case max => unfold highest; rw [htrailing]; rfl
  case std => unfold movingDeviation; rw [htrailing]; rfl
  case percentile =>
    obtain ⟨x, hx, hbetween⟩ := hopt.fraction hf
    dsimp only
    rw [hx, mapError_ok, ok_bind]
    dsimp only
    rw [if_pos hbetween]
    unfold percentile
    rw [htrailing]
    rfl
  case bbwidth =>
    obtain ⟨x, hx⟩ := hopt.spans hf
    dsimp only
    rw [hx, mapError_ok, ok_bind]
    unfold bandWidth
    rw [htrailing]
    rfl

/-- **A hard function fails on a short series**, and tells how much it needs and how much there
is. -/
theorem windowedValue_of_short (h : b.InOrder v window) (hhard : b.function.isSoft = false)
    (hshort : xs.length < b.function.reach window) :
    windowedValue b window xs =
      .error (.insufficientData (b.function.reach window) xs.length) := by
  have hneed := need_eq_reach hhard h.window_lt
  rw [← hneed] at hshort ⊢
  exact windowedValue_of_lt_need h.windowed h.optionsUsable hhard hshort

/-- **A soft function has no value on a short series.** -/
theorem windowedValue_of_soft_short (hsoft : b.function.isSoft = true)
    (hshort : xs.length < b.function.reach window) : windowedValue b window xs = .ok none := by
  unfold windowedValue
  rcases hf : b.function
  all_goals rw [hf] at hsoft hshort
  case ema =>
    have hema : xs.length < window := hshort
    unfold exponentialAverage
    dsimp only
    rw [if_pos (.inr hema)]
    rfl
  case momentum =>
    have hmomentum : xs.length < window + 1 := hshort
    unfold momentum
    dsimp only
    rw [if_pos hmomentum]
  case atr =>
    have hatr : xs.length < window := hshort
    unfold averageRange
    dsimp only
    rw [if_pos (.inr hatr)]
    rfl
  all_goals cases hsoft

/-! ## Long series -/

/-- **With enough values no function lacks data.** -/
theorem windowedValue_of_enough (h : b.InOrder v window)
    (henough : b.function.reach window ≤ xs.length) (needed available : ℕ) :
    windowedValue b window xs ≠ .error (.insufficientData needed available) := by
  intro hlacks
  rcases windowedValue_error h.windowed hlacks with ⟨a, ha⟩ | htrailing | ⟨-, hunfit⟩
  · cases ha
  · have hshort := (trailing_error_iff.mp htrailing).1
    have hneed := need_le_reach b.function window
    omega
  · exact hunfit h.optionsFit

end

/-! ## Calls -/

section

variable {f : Function} {args : List Argument} {keywords : List (String × Argument)} {b : Bound}
  {v : Variable} {window : ℕ} {history : History Float} {xs : List Float}

/-- A call whose arguments are in order has the value of its function over the series it reads. -/
theorem call_of_inOrder (hb : bind f args keywords = .ok b) (h : b.InOrder v window)
    (hxs : history (b.source v) = some xs) :
    call f args keywords history = windowedValue b window xs := by
  obtain ⟨x, hx, hw⟩ := h.window_eq
  unfold call
  rw [hb, mapError_ok, ok_bind]
  exact b.value_of_window h.windowed hx hw h.named hxs

/-- **A hard function lacks data exactly when its series is short of what it reads, and then tells
how much that is and how much there is; a soft one never lacks data and has no value then.** With
enough values a call depends on the last ones alone, as many as its function reads. -/
theorem lacks_data_exactly_when_short (hb : bind f args keywords = .ok b)
    (h : b.InOrder v window) (hxs : history (b.source v) = some xs) :
    (f.isSoft = false → ∀ needed available,
        call f args keywords history = .error (.insufficientData needed available) ↔
          xs.length < f.reach window ∧ needed = f.reach window ∧ available = xs.length) ∧
      (f.isSoft = true →
        (∀ needed available,
          call f args keywords history ≠ .error (.insufficientData needed available)) ∧
        (xs.length < f.reach window → call f args keywords history = .ok none)) ∧
      (f.reach window ≤ xs.length → ∀ history' ys, history' (b.source v) = some ys →
        ys.rtake (f.reach window) = xs.rtake (f.reach window) →
          call f args keywords history' = call f args keywords history) := by
  obtain rfl := function_of_bind hb
  have hcall := call_of_inOrder hb h hxs
  rw [hcall]
  refine ⟨fun hhard needed available => ?_, fun hsoft => ⟨fun needed available => ?_, ?_⟩, ?_⟩
  · by_cases hshort : xs.length < b.function.reach window
    · rw [windowedValue_of_short h hhard hshort, and_iff_right hshort, Except.error.injEq,
        Fault.insufficientData.injEq, eq_comm (a := needed), eq_comm (a := available)]
    · have henough := windowedValue_of_enough h (Nat.not_lt.mp hshort) needed available
      exact ⟨fun hlacks => absurd hlacks henough, fun hs => absurd hs.1 hshort⟩
  · by_cases hshort : xs.length < b.function.reach window
    · rw [windowedValue_of_soft_short hsoft hshort]
      exact fun hlacks => (by cases hlacks)
    · exact windowedValue_of_enough h (Nat.not_lt.mp hshort) needed available
  · exact windowedValue_of_soft_short hsoft
  · intro _ history' ys hys hlast
    rw [call_of_inOrder hb h hys]
    exact windowedValue_congr_reach b hlast

end

/-- A fraction and a window that are given by their names. -/
def ninthDecile : List (String × Argument) :=
  [("pct", .scalar (some 0.9)), ("window", .scalar (some 3))]

theorem lacks_data_ninthDecile : ∃ b, bind .percentile [.series .mid 100] ninthDecile = .ok b ∧
    b.InOrder .mid 3 ∧
    call .percentile [.series .mid 100] ninthDecile (fun _ => some [100, 102]) =
      .error (.insufficientData 3 2) ∧
    call .percentile [.series .mid 100] ninthDecile
        (fun v => if v = .mid then some [7, 100, 102, 101] else none) =
      call .percentile [.series .mid 100] ninthDecile (fun _ => some [100, 102, 101]) := by
  obtain ⟨b, hb, hsource⟩ : ∃ b, bind .percentile [.series .mid 100] ninthDecile = .ok b ∧
      b.source .mid = .mid := ⟨_, rfl, rfl⟩
  have horder : b.InOrder .mid 3 := by
    cases hb
    exact {
      windowed := rfl
      named := rfl
      window_eq := ⟨3, rfl, by decide +kernel⟩
      window_lt := by decide +kernel
      fraction := fun _ => ⟨0.9, rfl, by decide +kernel⟩
      spans := fun h => by cases h }
  have hshort := @lacks_data_exactly_when_short .percentile [.series .mid 100] ninthDecile b .mid 3
    (fun _ => some [100, 102]) [100, 102] hb horder rfl
  have hlong := @lacks_data_exactly_when_short .percentile [.series .mid 100] ninthDecile b .mid 3
    (fun _ => some [100, 102, 101]) [100, 102, 101] hb horder rfl
  have hlast : ∀ a b c d : Float, [a, b, c, d].rtake (Function.percentile.reach 3) =
      [b, c, d].rtake (Function.percentile.reach 3) := fun _ _ _ _ => rfl
  have hshown : (fun v => if v = Variable.mid then some [7, 100, 102, 101] else none :
      History Float) (b.source .mid) = some [7, 100, 102, 101] := by
    rw [hsource]
    rfl
  exact ⟨b, hb, horder, (hshort.1 rfl 3 2).mpr ⟨by decide, rfl, rfl⟩,
    hlong.2.2 (by decide) _ _ hshown (hlast 7 100 102 101)⟩

end TickBacktest.Indicator
