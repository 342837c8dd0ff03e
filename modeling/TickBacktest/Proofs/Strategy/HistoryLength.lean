import TickBacktest.Proofs.Backtest.LookBack
import TickBacktest.Proofs.Backtest.Observation
import TickBacktest.Proofs.Expression.Estimate
import TickBacktest.Proofs.Strategy.Lookahead
import TickBacktest.Proofs.Strategy.Preflight

/-! # The length of the history

A strategy looks back one value more than the largest window that is estimated for it, at most
(`looksBack_policy`). A history that is longer than that makes no difference, as long as it can be
made (`run_eq_iff_of_long_history`).

With a history as long as that window, every function has the values that it needs once the strategy
has warmed up, but for one: the relative strength looks at changes and needs one value more
(`lacksData_of_strength`). Where no relative strength has the length of the history for its window,
no function lacks data (`not_lacksData_of_warm`). -/

namespace TickBacktest.Strategy

open Backtest (Config Context Policy State)
open Expression (Compiled Formula)
open Market

/-! ## Engines -/

section

variable {d : Definition} {e : Engine} (he : Engine.ofDefinition d = .ok e)

/-- The largest window that is estimated for a function of the strategy. -/
def Definition.maxWindow (d : Definition) : ℕ :=
  (d.functions.map fun f => (Expression.requirements f.expression).maxWindow).foldl max 0

/-- Every window in a function of the engine is a number in its text, or left out. -/
def Engine.LiteralWindows (e : Engine) : Prop :=
  ∀ p ∈ e.functions, p.2.formula.LiteralWindows

instance (e : Engine) : Decidable e.LiteralWindows :=
  inferInstanceAs (Decidable (∀ p ∈ e.functions, p.2.formula.LiteralWindows))

include he

theorem exists_of_mem_functions {p : String × Compiled} (hp : p ∈ e.functions) :
    ∃ f ∈ d.functions, Expression.compile f.expression = .ok p.2 := by
  obtain ⟨f, hf, -, hcompile⟩ := (Engine.mem_functions_iff he).mp hp
  exact ⟨f, hf, hcompile⟩

end

/-- An evaluation that fails because a series is too short. -/
def LacksData (r : Except Fault (Option Float)) : Prop := ∃ n m, r = .error (.insufficientData n m)

instance : DecidablePred LacksData := fun r =>
  match r with
  | .error (.insufficientData n m) => isTrue ⟨n, m, rfl⟩
  | .ok _ | .error (.misuse _) | .error (.arithmetic _) => isFalse fun ⟨_, _, h⟩ => (by cases h)

/-- The windows that are estimated for the calls of the relative strength in a formula. -/
def strengthWindows (e : Formula) : List ℕ :=
  (e.parts.filterMap Formula.called?).filterMap fun c => if c.1 = .rsi then c.2 else none

theorem mem_strengthWindows {e : Formula} {args : List Formula}
    {keywords : List (String × Formula)} (hc : .call .rsi args keywords ∈ e.parts) {w : ℕ}
    (hw : Expression.callWindow? .rsi (Expression.nodesOf args)
      (Expression.keywordNodes keywords) = some w) : w ∈ strengthWindows e := by
  refine List.mem_filterMap.mpr ⟨(.rsi, some w), List.mem_filterMap.mpr ⟨_, hc, ?_⟩, rfl⟩
  exact Formula.called?_eq_some_iff.mpr ⟨args, keywords, rfl, hw⟩

/-- A history shows as many values as there were, up to its length. -/
theorem length_of_shown {config : Config Float} {ticks : List (Tick Float)}
    {positions : List Backtest.Position} {i : ℕ} {c : Context Float}
    (h : Backtest.Shown config ticks positions i c) (v : Variable) :
    (c.history.series v).length = min (max config.historyLength 1) i := by
  obtain ⟨t, ht, -⟩ := Option.map_eq_some_iff.mp h.time
  have hi : i < ticks.length := (List.getElem?_eq_some_iff.mp ht).1
  rw [h.history v, length_rtake, List.length_take, Backtest.length_variableSeries]
  omega

/-- The estimate for a strategy covers each of its functions. -/
theorem le_summary_maxWindow {s : Spec} {d : Definition} (h : s.build = .ok d)
    {g : FunctionDefinition} (hg : g ∈ d.functions) :
    (Expression.requirements g.expression).maxWindow ≤ s.summary.requirements.maxWindow := by
  obtain ⟨f, hf, hexpr⟩ := exists_spec_of_build h hg
  refine Expression.le_foldl_max (List.mem_map.mpr ⟨Expression.requirements g.expression, ?_, rfl⟩)
  exact List.mem_map.mpr ⟨g.expression, List.mem_filterMap.mpr ⟨f, hf, hexpr⟩, rfl⟩

/-- **No function lacks data once the strategy has warmed up**, if the history is as long as its
largest window and longer than that of every relative strength. -/
theorem not_lacksData_of_warm {s : Spec} {d : Definition} {e : Engine} (hd : s.build = .ok d)
    (he : Engine.ofDefinition d = .ok e) (hlit : e.LiteralWindows) (config : Config Float)
    (hmax : s.summary.requirements.maxWindow ≤ config.historyLength)
    (hstrength : ∀ p ∈ e.functions, config.historyLength ∉ strengthWindows p.2.formula)
    (ticks : List (Tick Float)) {i : ℕ} {c : Context Float}
    (hc : ((State.start config []).contextsAt e.policy (validTicks ticks))[i]? = some c)
    (hi : s.summary.requirements.minDataPoints ≤ i) :
    ∀ p ∈ e.functions, ¬ LacksData (p.2.evaluate c.current c.history.view) := by
  rintro p hp ⟨n, m, hlacks⟩
  obtain ⟨g, hg, hcompile⟩ := exists_of_mem_functions he hp
  obtain ⟨f, args, keywords, w, v, xs, hcall, hw, hsize, hxs, hshort⟩ :=
    Expression.lacking_of_evaluate hcompile (hlit p hp) (fun v => ⟨_, rfl⟩) hlacks
  have hle : w ≤ s.summary.requirements.maxWindow :=
    (Expression.le_maxWindow hcompile hcall hw).trans (le_summary_maxWindow hd hg)
  have hlength : xs.length = min (max config.historyLength 1) i := by
    cases hxs
    exact length_of_shown (Backtest.shown_contextsAt e.policy [] config _ hc) v
  have hwarm : f.need w ≤ s.summary.requirements.minDataPoints :=
    Expression.Requirements.need_le ⟨_, _, _, rfl⟩ hle hsize f
  -- only the relative strength needs a value more, and its window is not the whole length
  have hlong : f.need w ≤ config.historyLength := by
    unfold Indicator.Function.need
    split_ifs with hf
    · subst hf
      have hne : w ≠ config.historyLength := by
        rintro rfl
        exact hstrength p hp (mem_strengthWindows hcall hw)
      have hlag := Indicator.withLag_le w
      omega
    · exact hle.trans hmax
  omega

/-- The relative strength fails on a series that is no longer than its window. -/
theorem call_strength {v : Variable} {y x : Float} {w : ℕ} (hx : Indicator.window? x = some w)
    {history : History Float} {xs : List Float} (hxs : history v = some xs)
    (hshort : xs.length < Indicator.withLag w) :
    Indicator.call .rsi [.series v y, .scalar (some x)] [] history =
      .error (.insufficientData (Indicator.withLag w) xs.length) := by
  have hfits : Indicator.Function.rsi.Fits 2 [] := by decide
  obtain ⟨b, hb⟩ : ∃ b, Indicator.bind .rsi [.series v y, .scalar (some x)] [] = .ok b :=
    ⟨_, Indicator.bind_ok_iff_fits.mpr ⟨hfits, rfl⟩⟩
  have hfunction := Indicator.function_of_bind hb
  have hwindow : b.number "window" = .ok (some x) :=
    Indicator.number_window_of_scalar hb rfl rfl
  have hv : b.variableNamed = .ok v := Indicator.variableNamed_of_head hb rfl
  have hsource : history (b.source v) = some xs := by
    unfold Indicator.Bound.source
    rw [hfunction]
    exact hxs
  unfold Indicator.call
  rw [hb]
  show b.value history = _
  rw [Indicator.Bound.value_of_window (by rw [hfunction]; rfl) hwindow hx hv hsource]
  unfold Indicator.windowedValue
  rw [hfunction]
  show (do return some (← Indicator.relativeStrength xs w)) = _
  unfold Indicator.relativeStrength
  rw [Indicator.trailing_of_lt hshort]
  rfl

/-- **A relative strength whose window is the length of the history lacks data at every tick.** -/
theorem lacksData_of_strength (e : Engine) (config : Config Float) (ticks : List (Tick Float))
    {i : ℕ} {c : Context Float}
    (hc : ((State.start config []).contextsAt e.policy (validTicks ticks))[i]? = some c)
    {p : Compiled} {v : Variable} {x : Float} {w : ℕ}
    (hp : p.formula = .call .rsi [.series v, .number x] []) (hx : Indicator.window? x = some w)
    (hw : max config.historyLength 1 ≤ w) (hsize : w < Decimal.maxSize) :
    LacksData (p.evaluate c.current c.history.view) := by
  have hlength := length_of_shown (Backtest.shown_contextsAt e.policy [] config _ hc) v
  have hshort : (c.history.series v).length < Indicator.withLag w := by
    unfold Indicator.withLag
    omega
  refine ⟨Indicator.withLag w, (c.history.series v).length, ?_⟩
  unfold Compiled.evaluate
  rw [hp, Expression.eval_call]
  have hargs : [Formula.series v, .number x].mapM
      (Expression.argumentFor c.current c.history.view .rsi) =
        .ok [.series v 0, .scalar (some x)] := by
    rfl
  rw [hargs]
  show (Indicator.call .rsi [.series v 0, .scalar (some x)] [] c.history.view >>= fun y =>
    pure (y.filter Float.isFinite)) = _
  rw [call_strength hx rfl hshort]
  rfl

/-- A strategy that looks at the relative strength of a single change. -/
def lastMove : Spec where
  name := some "Last move"
  functions := [⟨some "strength", none, some "RSI(mid, 1)"⟩]
  entryRules := []
  exitRules := []

/-- Twelve ticks, enough for the last move to warm up. -/
def twelveTicks : List (Tick Float) := ticksOfMids (List.replicate 12 100) 1

theorem not_lacksData_of_warm_lastMove : ∃ d, lastMove.build = .ok d ∧
    ∃ e, Engine.ofDefinition d = .ok e ∧
      ∃ c ∈ ((State.start ⟨0, 2⟩ []).contextsAt e.policy (validTicks twelveTicks))[11]?,
        ∀ p ∈ e.functions, ¬ LacksData (p.2.evaluate c.current c.history.view) := by
  obtain ⟨d, hd, e, he, hlit, hstrength, c, hc, -⟩ : ∃ d, lastMove.build = .ok d ∧
      ∃ e, Engine.ofDefinition d = .ok e ∧ e.LiteralWindows ∧
        (∀ p ∈ e.functions, 2 ∉ strengthWindows p.2.formula) ∧
        ∃ c ∈ ((State.start ⟨0, 2⟩ []).contextsAt e.policy (validTicks twelveTicks))[11]?,
          True := by
    decide +kernel
  exact ⟨d, hd, e, he, c, hc, not_lacksData_of_warm hd he hlit ⟨0, 2⟩ (by decide +kernel) hstrength
    twelveTicks hc (by decide +kernel)⟩

/-- **A history as long as the largest window may be too short.** -/
theorem lacksData_lastMove : ∃ d, lastMove.build = .ok d ∧
    ∃ e, Engine.ofDefinition d = .ok e ∧
      (∀ p ∈ e.functions, ∀ f args keywords, .call f args keywords ∈ p.2.formula.parts →
        Expression.WellFormedCall f args keywords) ∧
      lastMove.summary.requirements.maxWindow ≤ 1 ∧
      lastMove.summary.requirements.minDataPoints ≤ 11 ∧
      ∃ c ∈ ((State.start ⟨0, 1⟩ []).contextsAt e.policy (validTicks twelveTicks))[11]?,
        ∃ p ∈ e.functions, LacksData (p.2.evaluate c.current c.history.view) := by
  decide +kernel

end TickBacktest.Strategy
