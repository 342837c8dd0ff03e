import Mathlib.Order.Bounds.Basic
import TickBacktest.Proofs.Expression.Calls
import TickBacktest.Proofs.Expression.CallWindow
import TickBacktest.Proofs.Indicator.Horizon

/-! # The estimate of data

For an expression whose windows are numbers in the text, the estimate covers every window that is
bound: the expression looks back one value more, at most (`evaluate_congr_of_lt`), and lacks data
only where a call has a series shorter than it needs (`lacking_of_evaluate`).

For an expression whose calls are well formed (`WellFormedCall`) the estimate is sound: it is the
largest window that a call binds, and with as many values as it asks for no evaluation fails but in
its arithmetic (`estimate_sound`). -/

namespace TickBacktest.Expression

open Indicator (Argument Bound Function)
open Market (History Values Variable)

/-! ## Calls that are well formed -/

section

variable {f : Function} {args : List Formula} {keywords : List (String × Formula)}
  {as : List Argument} {ks : List (String × Argument)} {b : Bound}

/-- A call that its function can make sense of: the arguments fit the parameters; a windowed
function names its series first and is given series for nothing else, its window is a whole number
in the text that is not too large, or left out; and a fraction is a number in the text between zero
and one. -/
structure WellFormedCall (f : Function) (args : List Formula)
    (keywords : List (String × Formula)) : Prop where
  fits : f.Fits args.length (keywords.map (·.1))
  first : f.isWindowed → ∃ e ∈ args.head?, ∃ v, e = .series v
  others : f.isWindowed → ∀ q ∈ (f.parameters args.length).zip args, (∃ v, q.2 = .series v) →
    q.1.series = true
  window : f.isWindowed → ∀ e, f.argument? args keywords "window" = some e →
    ∃ x, e = .number x ∧ 1 ≤ x ∧ Indicator.isWhole x ∧ x ≤ 9007199254740992
  fraction : f = .percentile → ∀ e, f.argument? args keywords "pct" = some e →
    ∃ x, e = .number x ∧ 0 ≤ x ∧ x ≤ 1

instance : Decidable (WellFormedCall f args keywords) :=
  decidable_of_iff (f.Fits args.length (keywords.map (·.1)) ∧
      (f.isWindowed → ∃ e ∈ args.head?, ∃ v, e = .series v) ∧
      (f.isWindowed → ∀ q ∈ (f.parameters args.length).zip args, (∃ v, q.2 = .series v) →
        q.1.series = true) ∧
      (f.isWindowed → ∀ e, f.argument? args keywords "window" = some e →
        ∃ x, e = .number x ∧ 1 ≤ x ∧ Indicator.isWhole x ∧ x ≤ 9007199254740992) ∧
      (f = .percentile → ∀ e, f.argument? args keywords "pct" = some e →
        ∃ x, e = .number x ∧ 0 ≤ x ∧ x ≤ 1))
    ⟨fun ⟨h1, h2, h3, h4, h5⟩ => ⟨h1, h2, h3, h4, h5⟩,
      fun h => ⟨h.fits, h.first, h.others, h.window, h.fraction⟩⟩

namespace WellFormedCall

variable (h : WellFormedCall f args keywords)

include h

theorem literalWindow (hf : f.isWindowed) : LiteralWindow f args keywords := fun e he =>
  let ⟨x, hx, _⟩ := h.window hf e he
  ⟨x, hx⟩

/-- **A windowed call that is well formed binds the window that is estimated.** -/
theorem exists_window (hf : f.isWindowed) :
    ∃ w, BindsWindow f args keywords w ∧
      callWindow? f (nodesOf args) (keywordNodes keywords) = some w := by
  obtain ⟨w, hw⟩ := exists_bindsWindow hf h.fits fun e he => by
    obtain ⟨x, rfl, hone, hwhole, hle⟩ := h.window hf e he
    obtain ⟨w, hw⟩ := exists_window? hone hwhole hle
    exact ⟨x, w, rfl, hw⟩
  obtain ⟨as, ks, hg⟩ := exists_given args keywords
  obtain ⟨b, x, hb, hx, hxw⟩ := hw as ks hg
  exact ⟨w, hw, callWindow?_of_bound hf (h.literalWindow hf) hg hb hx hxw⟩

/-- The series of the call is that of the variable that is named first. -/
theorem exists_variable (hf : f.isWindowed) (hg : Given args keywords as ks)
    (hb : Indicator.bind f as ks = .ok b) : ∃ v, b.variableNamed = .ok v := by
  obtain ⟨e, he, v, rfl⟩ := h.first hf
  obtain ⟨rest, rfl⟩ := List.head?_eq_some_iff.mp he
  obtain ⟨a, as, ha, -, rfl⟩ := List.forall₂_cons_left_iff.mp hg.args
  cases ha with
  | series v x => exact ⟨v, Indicator.variableNamed_of_head hb rfl⟩
  | other hs _ _ => exact absurd rfl (hs v)

/-- A parameter that is a number gets one, of a function of a number also from a variable. -/
theorem exists_number (hplaced : WellPlacedKeywords keywords) (hg : Given args keywords as ks)
    (hb : Indicator.bind f as ks = .ok b) {p : Indicator.Parameter}
    (hp : p ∈ f.parameters args.length) (hseries : p.series = false) :
    ∃ x, b.number p.name = .ok x := by
  have hp' : p ∈ f.parameters as.length := hg.args.length_eq ▸ hp
  rw [Indicator.number_of_bind hb hp']
  have hrel := hg.argument? f p.name
  rcases ha : f.argument? as ks p.name with _ | ⟨v, x⟩ | x
  · exact ⟨_, rfl⟩
  · by_cases hf : f.isScalar
    · exact ⟨some x, if_pos hf⟩
    · have hwindowed := Indicator.isWindowed_iff.mpr hf
      rw [ha] at hrel
      generalize he : f.argument? args keywords p.name = r at hrel
      cases hrel with
      | some hgives =>
        cases hgives
        rcases Indicator.mem_of_argument? hp he with hmem | hmem
        · rw [h.others hwindowed _ hmem ⟨v, rfl⟩] at hseries
          cases hseries
        · exact (placed_of_mem_keywords hplaced hmem).elim
  · exact ⟨_, rfl⟩

/-- The numbers that the call has besides its window are in order. -/
theorem optionsFit (hplaced : WellPlacedKeywords keywords) (hg : Given args keywords as ks)
    (hb : Indicator.bind f as ks = .ok b) : b.OptionsFit := by
  have hfunction := Indicator.function_of_bind hb
  constructor
  · intro hf
    rw [hfunction] at hf
    subst hf
    have hp : Function.requiredParameter "pct" ∈ Function.percentile.parameters as.length :=
      .tail _ (.tail _ (.head _))
    have hnumber := Indicator.number_of_bind hb hp
    rcases he : Function.percentile.argument? args keywords "pct" with _ | e
    · refine ⟨none, ?_, fun y hy => (by cases hy)⟩
      rw [show b.number "pct" = _ from hnumber]
      exact congrArg _ (hg.argument?_none he)
    · obtain ⟨x, rfl, hbetween⟩ := h.fraction rfl e he
      refine ⟨some x, ?_, fun y hy => (by cases hy; exact hbetween)⟩
      rw [show b.number "pct" = _ from hnumber]
      exact congrArg _ (hg.argument?_number he)
  · intro hf
    rw [hfunction] at hf
    subst hf
    exact h.exists_number hplaced hg hb (.tail _ (.tail _ (.head _))) rfl

/-- **A well-formed call with enough data fails in its arithmetic only.** -/
theorem call_error (hplaced : WellPlacedKeywords keywords) (hg : Given args keywords as ks)
    {history : History Float} (hdata : f.isWindowed → ∀ w, BindsWindow f args keywords w →
      ∀ v, ∃ xs, history v = some xs ∧ f.need w ≤ xs.length) {fault : Fault}
    (hfault : Indicator.call f as ks history = .error fault) : ∃ a, fault = .arithmetic a := by
  obtain ⟨b, hb⟩ := hg.exists_bind h.fits
  have hfunction := Indicator.function_of_bind hb
  have hvalue : b.value history = .error fault := by
    unfold Indicator.call at hfault
    rw [hb] at hfault
    exact hfault
  by_cases hf : f.isScalar
  · have hp : Function.requiredParameter "x" ∈ f.parameters args.length := by
      cases f
      case abs | sqrt | exp | log => exact .head _
      all_goals cases hf
    obtain ⟨x, hx⟩ := h.exists_number hplaced hg hb hp rfl
    obtain ⟨y, hy⟩ : ∃ y, b.value history = .ok y :=
      Bound.value_of_scalar (hfunction ▸ hf) hx
    rw [hy] at hvalue
    cases hvalue
  · have hwindowed := Indicator.isWindowed_iff.mpr hf
    obtain ⟨w, hw, -⟩ := h.exists_window hwindowed
    obtain ⟨b', x, hb', hx, hxw⟩ := hw as ks hg
    rw [hb] at hb'
    cases hb'
    obtain ⟨v, hv⟩ := h.exists_variable hwindowed hg hb
    obtain ⟨xs, hxs, hlen⟩ := hdata hwindowed w hw (b.source v)
    rw [Bound.value_of_window (hfunction ▸ hwindowed) hx hxw hv hxs] at hvalue
    rcases Indicator.windowedValue_error (hfunction ▸ hwindowed) hvalue with
      ha | hshort | ⟨-, hunfit⟩
    · exact ha
    · rw [hfunction] at hshort
      exact absurd (Indicator.trailing_error_iff.mp hshort).1 (Nat.not_lt.mpr hlen)
    · exact absurd (h.optionsFit hplaced hg hb) hunfit

end WellFormedCall

end

/-! ## The estimate -/

theorem le_foldl_max {l : List ℕ} {w : ℕ} (h : w ∈ l) : w ≤ l.foldl max 0 := by
  rw [List.foldl_max, Nat.zero_max]
  exact List.le_max?_getD_of_mem h

theorem isGreatest_foldl_max {l : List ℕ} (h : l ≠ []) :
    IsGreatest {w | w ∈ l} (l.foldl max 0) := by
  refine ⟨?_, fun w hw => le_foldl_max hw⟩
  rw [List.foldl_max, Nat.zero_max]
  obtain ⟨m, hm⟩ := Option.ne_none_iff_exists'.mp (mt List.max?_eq_none_iff.mp h)
  rw [hm]
  exact List.max?_mem hm

/-- The windows that are estimated for the calls in a formula. -/
def Formula.estimates (e : Formula) : List ℕ := (e.parts.filterMap called?).filterMap (·.2)

theorem Formula.mem_estimates {e : Formula} {w : ℕ} : w ∈ e.estimates ↔
    ∃ f args keywords, .call f args keywords ∈ e.parts ∧
      callWindow? f (nodesOf args) (keywordNodes keywords) = some w := by
  unfold estimates
  rw [List.mem_filterMap]
  constructor
  · rintro ⟨⟨f, o⟩, hp, rfl⟩
    obtain ⟨d, hd, hc⟩ := List.mem_filterMap.mp hp
    obtain ⟨args, keywords, rfl, hw⟩ := called?_eq_some_iff.mp hc
    exact ⟨f, args, keywords, hd, hw⟩
  · rintro ⟨f, args, keywords, hd, hw⟩
    exact ⟨(f, some w), List.mem_filterMap.mpr ⟨_, hd, called?_eq_some_iff.mpr
      ⟨args, keywords, rfl, hw⟩⟩, rfl⟩

theorem maxWindow_of_compile {text : String} {c : Compiled} (h : compile text = .ok c) :
    (requirements text).maxWindow = c.formula.estimates.foldl max 0 := by
  rw [requirements_of_compile h]
  rfl

/-- The ticks to warm up cover what a function needs on top of its window. -/
theorem Requirements.need_le {r : Requirements} (hr : ∃ windows vs fs, r = .of windows vs fs)
    {w : ℕ} (hw : w ≤ r.maxWindow) (hsize : w ≤ Decimal.maxSize) (f : Function) :
    f.need w ≤ r.minDataPoints := by
  obtain ⟨windows, vs, fs, rfl⟩ := hr
  have hneed := Indicator.need_le f hsize
  have hwarm : w + 1 ≤ (of windows vs fs).maxWindow + warmUp := Nat.add_le_add hw (by decide)
  have hmin : (of windows vs fs).minDataPoints =
      min ((of windows vs fs).maxWindow + warmUp) Decimal.maxSize := rfl
  omega

/-- The estimate covers the window of each call. -/
theorem le_maxWindow {text : String} {c : Compiled} (h : compile text = .ok c) {f : Function}
    {args : List Formula} {keywords : List (String × Formula)}
    (hc : .call f args keywords ∈ c.formula.parts) {w : ℕ}
    (hw : callWindow? f (nodesOf args) (keywordNodes keywords) = some w) :
    w ≤ (requirements text).maxWindow := by
  rw [maxWindow_of_compile h]
  exact le_foldl_max (Formula.mem_estimates.mpr ⟨f, args, keywords, hc, hw⟩)

/-! ## Windows in the text -/

/-- Every window in a formula is a number in the text, or left out. -/
def Formula.LiteralWindows (e : Formula) : Prop :=
  ∀ f args keywords, .call f args keywords ∈ e.parts → f.isWindowed →
    LiteralWindow f args keywords

instance (e : Formula) : Decidable e.LiteralWindows :=
  inferInstanceAs (Decidable (∀ f args keywords, .call f args keywords ∈ e.parts →
    f.isWindowed → ∀ d, f.argument? args keywords "window" = some d → ∃ x, d = .number x))

section

variable {text : String} {c : Compiled} (h : compile text = .ok c)
  (hlit : c.formula.LiteralWindows) {values : Values Float}

include h hlit

/-- **An expression lacks data only where a call does.** -/
theorem lacking_of_evaluate {history : History Float} (hall : ∀ v, ∃ xs, history v = some xs)
    {n m : ℕ} (herr : c.evaluate values history = .error (.insufficientData n m)) :
    ∃ f args keywords w v xs, .call f args keywords ∈ c.formula.parts ∧
      callWindow? f (nodesOf args) (keywordNodes keywords) = some w ∧ w ≤ Decimal.maxSize ∧
      history v = some xs ∧ xs.length < f.need w := by
  have hplaced := (sandboxed_of_compile h).placed
  rcases eval_error c.formula hplaced (bind_pure_error_iff.mp herr) with
    ⟨a, ha⟩ | ⟨f, args, keywords, as, ks, hc, hg, hf⟩
  · cases ha
  rcases bind_error_iff.mp hf with hf | ⟨b, hb, hf⟩
  · obtain ⟨_, -, he⟩ := mapError_error_iff.mp hf
    cases he
  have hb := mapError_ok_iff.mp hb
  obtain ⟨hwindowed, x, w, v, xs, hx, hw, -, hxs, hlt⟩ := Bound.value_insufficientData hall hf
  rw [Indicator.function_of_bind hb] at hwindowed hlt
  exact ⟨f, args, keywords, w, _, xs, hc, callWindow?_of_bound hwindowed
    (hlit f args keywords hc hwindowed) hg hb hx hw, Indicator.le_maxSize_of_window? hw, hxs, hlt⟩

end

/-! ## Requirements that are met -/

/-- The windows that the calls in a formula bind. -/
def Formula.windows (e : Formula) : Set ℕ :=
  {w | ∃ f args keywords, .call f args keywords ∈ e.parts ∧ f.isWindowed ∧
    BindsWindow f args keywords w}

/-- **The windows that are estimated are those that are bound.** -/
theorem Formula.windows_eq {e : Formula} (hcalls : ∀ f args keywords,
    .call f args keywords ∈ e.parts → WellFormedCall f args keywords) :
    e.windows = {w | w ∈ e.estimates} := by
  ext w
  rw [Set.mem_ofPred_eq, mem_estimates]
  constructor
  · rintro ⟨f, args, keywords, hc, hf, hw⟩
    have hform := hcalls f args keywords hc
    obtain ⟨as, ks, hg⟩ := exists_given args keywords
    obtain ⟨b, x, hb, hx, hxw⟩ := hw as ks hg
    exact ⟨f, args, keywords, hc, callWindow?_of_bound hf (hform.literalWindow hf) hg hb hx hxw⟩
  · rintro ⟨f, args, keywords, hc, hw⟩
    have hf := isWindowed_of_callWindow? hw
    obtain ⟨w', hbinds, hw'⟩ := (hcalls f args keywords hc).exists_window hf
    rw [hw] at hw'
    cases hw'
    exact ⟨f, args, keywords, hc, hf, hbinds⟩

section

variable {text : String} {c : Compiled} (h : compile text = .ok c)
  (hcalls : ∀ f args keywords, .call f args keywords ∈ c.formula.parts →
    WellFormedCall f args keywords)

include h hcalls

/-- The largest window that is bound is the estimate. -/
theorem maxWindow_greatest : IsGreatest c.formula.windows (requirements text).maxWindow ∨
    c.formula.windows = ∅ ∧ (requirements text).maxWindow = 0 := by
  rw [Formula.windows_eq hcalls, maxWindow_of_compile h]
  by_cases hnil : c.formula.estimates = []
  · right
    rw [hnil]
    exact ⟨Set.eq_empty_of_forall_notMem fun w hw => absurd hw List.not_mem_nil, rfl⟩
  · exact .inl (isGreatest_foldl_max hnil)

/-- What is estimated is enough for each window that is bound. -/
theorem need_le_of_bindsWindow {f : Function} {args : List Formula}
    {keywords : List (String × Formula)} (hc : .call f args keywords ∈ c.formula.parts)
    (hf : f.isWindowed) {w : ℕ} (hw : BindsWindow f args keywords w) :
    f.need w ≤ (requirements text).minDataPoints := by
  obtain ⟨as, ks, hg⟩ := exists_given args keywords
  obtain ⟨b, x, hb, hx, hxw⟩ := hw as ks hg
  have hestimated := callWindow?_of_bound hf ((hcalls f args keywords hc).literalWindow hf) hg hb hx
    hxw
  exact Requirements.need_le ⟨_, _, _, requirements_of_compile h⟩ (le_maxWindow h hc hestimated)
    (Indicator.le_maxSize_of_window? hxw) f

/-- **With enough data, evaluation fails in its arithmetic only.** -/
theorem arithmetic_of_evaluate {values : Values Float} {history : History Float}
    (hdata : ∀ v, ∃ xs, history v = some xs ∧ (requirements text).minDataPoints ≤ xs.length)
    {fault : Fault} (hfault : c.evaluate values history = .error fault) :
    ∃ a, fault = .arithmetic a := by
  have hplaced := (sandboxed_of_compile h).placed
  rcases eval_error c.formula hplaced (bind_pure_error_iff.mp hfault) with
    ha | ⟨f, args, keywords, as, ks, hc, hg, hf⟩
  · exact ha
  · have henough : f.isWindowed → ∀ w, BindsWindow f args keywords w →
        ∀ v, ∃ xs, history v = some xs ∧ f.need w ≤ xs.length := by
      intro hwindowed w hw v
      obtain ⟨xs, hxs, hlen⟩ := hdata v
      exact ⟨xs, hxs, (need_le_of_bindsWindow h hcalls hc hwindowed hw).trans hlen⟩
    exact (hcalls f args keywords hc).call_error (placed_call hplaced hc).2 hg henough hf

end

/-- **The estimate is sound.** It is the largest window that a call binds, and with as many values
of each variable as it asks for an evaluation fails in its arithmetic only. -/
theorem estimate_sound {text : String} {c : Compiled} (h : compile text = .ok c)
    (hcalls : ∀ f args keywords, .call f args keywords ∈ c.formula.parts →
      WellFormedCall f args keywords) :
    (IsGreatest c.formula.windows (requirements text).maxWindow ∨
      c.formula.windows = ∅ ∧ (requirements text).maxWindow = 0) ∧
    ∀ (values : Values Float) (history : History Float),
      (∀ v, ∃ xs, history v = some xs ∧ (requirements text).minDataPoints ≤ xs.length) →
        (∃ y, c.evaluate values history = .ok y) ∨
          ∃ a, c.evaluate values history = .error (.arithmetic a) := by
  refine ⟨maxWindow_greatest h hcalls, fun values history hdata => ?_⟩
  rcases he : c.evaluate values history with fault | y
  · obtain ⟨a, rfl⟩ := arithmetic_of_evaluate h hcalls hdata he
    exact .inr ⟨a, rfl⟩
  · exact .inl ⟨y, rfl⟩

theorem estimate_sound_rsiPercentile : ∃ c,
    compile "RSI(mid, window=3) * PERCENTILE(spread, 2, 0.5)" = .ok c ∧
    (∀ f args keywords, .call f args keywords ∈ c.formula.parts →
      WellFormedCall f args keywords) ∧
    (requirements "RSI(mid, window=3) * PERCENTILE(spread, 2, 0.5)").minDataPoints = 13 ∧
    ((∃ y, c.evaluate ⟨1, 1, 1, 1, 1, 0⟩ (fun _ => some (List.replicate 13 1)) = .ok y) ∨
      ∃ a, c.evaluate ⟨1, 1, 1, 1, 1, 0⟩ (fun _ => some (List.replicate 13 1)) =
        .error (.arithmetic a)) := by
  obtain ⟨c, hc, hcalls⟩ : ∃ c,
      compile "RSI(mid, window=3) * PERCENTILE(spread, 2, 0.5)" = .ok c ∧
      ∀ f args keywords, .call f args keywords ∈ c.formula.parts →
        WellFormedCall f args keywords := by
    decide +kernel
  have hmin : (requirements "RSI(mid, window=3) * PERCENTILE(spread, 2, 0.5)").minDataPoints =
      13 := by
    decide +kernel
  refine ⟨c, hc, hcalls, hmin, (estimate_sound hc hcalls).2 _ _ fun v => ⟨_, rfl, ?_⟩⟩
  rw [hmin, List.length_replicate]

end TickBacktest.Expression
