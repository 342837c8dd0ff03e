import TickBacktest.Proofs.Expression.Calls
import TickBacktest.Proofs.Indicator.Horizon

/-! # What an expression depends on

The variables and functions that are reported for a text are those of its formula (`lists_used`). Of
the market the formula reads no more than it names: current values, the series of the variables that
are arguments of windowed calls, and for the range of quotes the series of the spread. Two markets
that agree on these give the same value or the same fault (`reads_only_named`). -/

namespace TickBacktest.Expression

open Indicator (Argument Bound Function)
open Market (History Values Variable)

/-! ## Reports -/

/-- The elements of `all` with the property `p`, in order, each once. -/
structure Lists {β : Type} (xs all : List β) (p : β → Prop) : Prop where
  sublist : xs.Sublist all
  nodup : xs.Nodup
  mem_iff : ∀ x, x ∈ xs ↔ p x

theorem lists_filter {β : Type} [DecidableEq β] {all ys : List β} (hnodup : all.Nodup)
    (hall : ∀ x, x ∈ all) {p : β → Prop} (hp : ∀ x, x ∈ ys ↔ p x) :
    Lists (all.filter (· ∈ ys)) all p where
  sublist := List.filter_sublist
  nodup := hnodup.filter _
  mem_iff x := by
    rw [List.mem_filter, decide_eq_true_iff, and_iff_right (hall x), hp]

/-- **What is reported for a text is what its formula uses.** -/
theorem lists_used {text : String} {c : Compiled} (h : compile text = .ok c) :
    Lists (requirements text).usedVariables Variable.all
        (fun v => .current v ∈ c.formula.parts ∨ .series v ∈ c.formula.parts) ∧
      Lists (requirements text).usedFunctions Function.all
        (fun f => ∃ args keywords, .call f args keywords ∈ c.formula.parts) := by
  rw [requirements_of_compile h]
  constructor
  · refine lists_filter (by decide) Variable.mem_all fun v => ?_
    rw [List.mem_filterMap]
    constructor
    · rintro ⟨e, he, hv⟩
      rcases Formula.named?_eq_some_iff.mp hv with rfl | rfl
      · exact .inl he
      · exact .inr he
    · rintro (he | he)
      · exact ⟨_, he, rfl⟩
      · exact ⟨_, he, rfl⟩
  · refine lists_filter (by decide) Function.mem_all fun f => ?_
    rw [List.mem_map]
    constructor
    · rintro ⟨⟨g, w⟩, hg, rfl⟩
      obtain ⟨e, he, hc⟩ := List.mem_filterMap.mp hg
      obtain ⟨args, keywords, rfl, -⟩ := Formula.called?_eq_some_iff.mp hc
      exact ⟨args, keywords, he⟩
    · rintro ⟨args, keywords, he⟩
      exact ⟨_, List.mem_filterMap.mpr ⟨_, he, rfl⟩, rfl⟩

/-! ## Reading the market -/

namespace Formula

/-- The variables whose series a formula reads itself. -/
def seriesHere : Formula → List Variable
  | .call f args _ =>
    if f.isWindowed then args.filterMap series? ++ (if f = .atr then [.spread] else []) else []
  | _ => []

/-- The variables whose series a formula reads: the positional arguments of windowed calls, and the
spread where the range of quotes is called. -/
def seriesRead (e : Formula) : List Variable := e.parts.flatMap seriesHere

end Formula

/-- **A call reads the series of its arguments.** -/
theorem call_congr {f : Function} {args : List Formula} {keywords : List (String × Formula)}
    (hplaced : WellPlacedKeywords keywords) {as : List Argument} {ks : List (String × Argument)}
    (hg : Given args keywords as ks) {history history' : History Float}
    (h : ∀ v ∈ (Formula.call f args keywords).seriesHere, history v = history' v) :
    Indicator.call f as ks history = Indicator.call f as ks history' := by
  unfold Indicator.call
  rcases hb : Indicator.bind f as ks with m | b
  · rfl
  refine Bound.value_congr b fun hf x window v _ _ hv => ?_
  rw [Indicator.function_of_bind hb] at hf
  have hread : b.source v ∈ (Formula.call f args keywords).seriesHere := by
    rw [Formula.seriesHere, if_pos hf, Bound.source, Indicator.function_of_bind hb,
      List.mem_append]
    by_cases hatr : f = .atr
    · right
      rw [if_pos hatr, if_pos hatr]
      exact List.mem_singleton_self _
    · left
      rw [if_neg hatr]
      obtain ⟨y, hy | ⟨k, hy⟩⟩ := Indicator.mem_of_variableNamed hb hv
      · exact List.mem_filterMap.mpr ⟨_, hg.mem_args hy, rfl⟩
      -- a bare name after a keyword is a current value, and never a series
      · exact (placed_of_mem_keywords hplaced (hg.mem_keywords hy)).elim
  rw [h _ hread]

/-- **Evaluation reads only what the expression names.** -/
theorem reads_only_named {text : String} {c : Compiled} (h : compile text = .ok c) :
    Lists (requirements text).usedVariables Variable.all
        (fun v => .current v ∈ c.formula.parts ∨ .series v ∈ c.formula.parts) ∧
      Lists (requirements text).usedFunctions Function.all
        (fun f => ∃ args keywords, .call f args keywords ∈ c.formula.parts) ∧
      ∀ (values values' : Values Float) (history history' : History Float),
        (∀ v ∈ c.formula.currents, values.get v = values'.get v) →
        (∀ v ∈ c.formula.seriesRead, history v = history' v) →
          c.evaluate values history = c.evaluate values' history' := by
  obtain ⟨hvariables, hfunctions⟩ := lists_used h
  refine ⟨hvariables, hfunctions, fun values values' history history' hvalues hhistory => ?_⟩
  have hplaced := (sandboxed_of_compile h).placed
  have halike : ReadsAlike values values' history history' c.formula := by
    refine ⟨hvalues, fun f args keywords hcall as ks hg => ?_⟩
    exact call_congr (placed_call hplaced hcall).2 hg fun v hv =>
      hhistory v (List.mem_flatMap.mpr ⟨_, hcall, hv⟩)
  unfold Compiled.evaluate
  rw [eval_congr c.formula hplaced halike]

theorem reads_only_named_averageGap : ∃ c, compile "SMA(mid, 2) - spread" = .ok c ∧
    c.formula.currents = [.spread] ∧ c.formula.seriesRead = [.mid] ∧
    c.evaluate ⟨100, 1, 99, 101, 5, 0⟩ (fun _ => some [100, 102]) =
      c.evaluate ⟨200, 1, 98, 102, 6, 1⟩ (fun v => if v = .mid then some [100, 102] else none) := by
  obtain ⟨c, hc, hcurrents, hseries⟩ : ∃ c, compile "SMA(mid, 2) - spread" = .ok c ∧
      c.formula.currents = [.spread] ∧ c.formula.seriesRead = [.mid] := by
    decide +kernel
  refine ⟨c, hc, hcurrents, hseries, (reads_only_named hc).2.2 _ _ _ _ ?_ ?_⟩
  · rw [hcurrents]
    decide +kernel
  · rw [hseries]
    decide +kernel

end TickBacktest.Expression
