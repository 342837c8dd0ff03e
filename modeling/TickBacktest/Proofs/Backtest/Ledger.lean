import Mathlib.Algebra.Ring.Int.Defs
import Mathlib.Data.List.Chain
import Mathlib.Data.List.Forall2
import TickBacktest.Proofs.Backtest.Replay
import TickBacktest.Proofs.Backtest.Returns

/-! # The ledger and the positions

The ledger of a run and its positions are read off the same chain of decisions, so they describe the
same run (`ledger_reconciles`): the entries lead from position to position (`Chained.trades`), they
add up to the final position (`Chained.sum_size`), and there is one for each tick at which the
position changes, with the time and the quote of that tick (`forall₂_tradeAt`). -/

namespace TickBacktest.Backtest

open Market

section

variable {α : Type}

/-! ## Entries -/

theorem Decision.trade?_eq_none {d : Decision α} (h : d.before = d.after) : d.trade? = none := by
  unfold trade?
  exact if_pos h

theorem Decision.trade?_ne {d : Decision α} (h : d.before ≠ d.after) :
    d.trade? = some
      { time := d.tick.time
        before := d.before
        after := d.after
        size := d.before.delta d.after
        price := if 0 < d.before.delta d.after then d.tick.bestAsk else d.tick.bestBid } := by
  unfold trade?
  exact if_neg h

/-- An entry moves the position, by its size. -/
theorem Decision.trade?_spec {d : Decision α} {trade : Trade α} (h : d.trade? = some trade) :
    trade.before = d.before ∧ trade.after = d.after ∧ trade.before ≠ trade.after ∧
      trade.size = trade.after.units - trade.before.units := by
  by_cases hd : d.before = d.after
  · rw [trade?_eq_none hd] at h
    cases h
  · rw [trade?_ne hd] at h
    cases h
    exact ⟨rfl, rfl, hd, rfl⟩

/-! ## The ledger of a chain -/

/-- The entries of a chain lead from position to position, the first from the one held before. -/
theorem Chained.trades {held : Position} {ds : List (Decision α)} (h : Chained held ds) :
    (∀ trade, (ds.filterMap (·.trade?)).head? = some trade → trade.before = held) ∧
      (ds.filterMap (·.trade?)).IsChain fun a b => b.before = a.after := by
  induction ds generalizing held with
  | nil => exact ⟨fun _ h => (Option.some_ne_none _ h.symm).elim, List.IsChain.nil⟩
  | cons d ds ih =>
    obtain ⟨hd, hds⟩ := h
    obtain ⟨hfirst, hlinked⟩ := ih hds
    by_cases hne : d.before = d.after
    · rw [List.filterMap_cons_none (Decision.trade?_eq_none hne)]
      refine ⟨fun trade ht => ?_, hlinked⟩
      rw [hfirst trade ht, ← hne, hd]
    · rw [List.filterMap_cons_some (Decision.trade?_ne hne), List.isChain_cons]
      refine ⟨fun trade ht => ?_, fun b hb => hfirst b hb, hlinked⟩
      cases ht
      exact hd

/-- The sizes of the entries add up to the change of the position. -/
theorem Chained.sum_size {held : Position} {ds : List (Decision α)} (h : Chained held ds) :
    ((ds.filterMap (·.trade?)).map (·.size)).sum =
      (positionAfter held ds).units - held.units := by
  induction ds generalizing held with
  | nil => rw [positionAfter_nil, Int.sub_self]; rfl
  | cons d ds ih =>
    obtain ⟨hd, hds⟩ := h
    rw [positionAfter_cons]
    by_cases hne : d.before = d.after
    · rw [List.filterMap_cons_none (Decision.trade?_eq_none hne), ih hds, ← hne, hd]
    · rw [List.filterMap_cons_some (Decision.trade?_ne hne), List.map_cons, List.sum_cons, ih hds,
        ← hd]
      show d.before.delta d.after + _ = _
      unfold Position.delta
      omega

/-! ## Entries by tick -/

/-- The ticks at which the position changes, by number. -/
def changes (ps : List Position) : List ℕ :=
  (List.range ps.length).filter fun i => ps[i]? ≠ (Position.flat :: ps)[i]?

/-- The entry for the change of the position at the tick with the number `i`. -/
structure TradeAt (ticks : List (Tick α)) (ps : List Position) (i : ℕ) (trade : Trade α) :
    Prop where
  before : (Position.flat :: ps)[i]? = some trade.before
  after : ps[i]? = some trade.after
  time : ticks[i]?.map (·.time) = some trade.time
  ask : 0 < trade.size → ticks[i]?.map (·.bestAsk) = some trade.price
  bid : trade.size < 0 → ticks[i]?.map (·.bestBid) = some trade.price

/-- A list filtered by place. -/
theorem filterMap_eq_range {β γ : Type} (f : β → Option γ) (l : List β) :
    l.filterMap f = (List.range l.length).filterMap fun i => l[i]?.bind f := by
  induction l with
  | nil => rfl
  | cons x l ih =>
    rw [List.length_cons, List.range_succ_eq_map, List.filterMap_cons, List.filterMap_cons,
      List.filterMap_map, List.getElem?_cons_zero, Option.bind_some, ih]
    rfl

/-- Places picked by a test, beside what is found there. -/
theorem forall₂_filter_filterMap {β : Type} {R : ℕ → β → Prop} {p : ℕ → Bool}
    {g : ℕ → Option β} {l : List ℕ}
    (h : ∀ i ∈ l, (p i = false ∧ g i = none) ∨ (p i = true ∧ ∃ b, g i = some b ∧ R i b)) :
    List.Forall₂ R (l.filter p) (l.filterMap g) := by
  induction l with
  | nil => exact List.Forall₂.nil
  | cons i l ih =>
    have hl := ih fun j hj => h j (List.mem_cons_of_mem _ hj)
    rcases h i List.mem_cons_self with ⟨hp, hg⟩ | ⟨hp, b, hg, hb⟩
    · rw [List.filter_cons_of_neg (by rw [hp]; exact Bool.false_ne_true),
        List.filterMap_cons_none hg]
      exact hl
    · rw [List.filter_cons_of_pos hp, List.filterMap_cons_some hg]
      exact List.Forall₂.cons hb hl

/-- The entry of a decision is the one for its tick. -/
theorem tradeAt_of_trade? {ds : List (Decision α)} (hds : Chained .flat ds) {i : ℕ}
    {d : Decision α} (hd : ds[i]? = some d) {trade : Trade α} (h : d.trade? = some trade) :
    TradeAt (ds.map (·.tick)) (ds.map (·.after)) i trade := by
  have hi : i < ds.length := (List.getElem?_eq_some_iff.mp hd).1
  have hbefore := hds.before_eq i hi
  rw [hd, Option.map_some] at hbefore
  by_cases hne : d.before = d.after
  · rw [Decision.trade?_eq_none hne] at h
    cases h
  · rw [Decision.trade?_ne hne] at h
    cases h
    refine ⟨hbefore.symm, ?_, ?_, fun hs => ?_, fun hs => ?_⟩
    · rw [List.getElem?_map, hd]; rfl
    · rw [List.getElem?_map, hd]; rfl
    · rw [List.getElem?_map, hd, if_pos hs]; rfl
    · have hneg : d.before.delta d.after < 0 := hs
      rw [List.getElem?_map, hd, if_neg (by omega)]; rfl

/-- **One entry for each change of the position**, in order, and no other. -/
theorem forall₂_tradeAt {ds : List (Decision α)} (hds : Chained .flat ds) :
    List.Forall₂ (TradeAt (ds.map (·.tick)) (ds.map (·.after))) (changes (ds.map (·.after)))
      (ds.filterMap (·.trade?)) := by
  rw [filterMap_eq_range, changes, List.length_map]
  refine forall₂_filter_filterMap fun i hi => ?_
  have hlt : i < ds.length := List.mem_range.mp hi
  obtain ⟨d, hd⟩ : ∃ d, ds[i]? = some d := ⟨ds[i], List.getElem?_eq_getElem hlt⟩
  have hbefore := hds.before_eq i hlt
  have hafter : (ds.map (·.after))[i]? = some d.after := by rw [List.getElem?_map, hd]; rfl
  rw [hd, Option.map_some] at hbefore
  rw [hafter, ← hbefore, hd, Option.bind_some]
  by_cases hne : d.before = d.after
  · left
    exact ⟨by rw [hne]; simp, Decision.trade?_eq_none hne⟩
  · right
    refine ⟨by simpa using Ne.symm hne, _, Decision.trade?_ne hne, ?_⟩
    exact tradeAt_of_trade? hds hd (Decision.trade?_ne hne)

end

/-! ## The result of a run -/

variable {α σ : Type} [Scalar α]

/-- The results of a run over valid ticks describe the same run. -/
structure Reconciled (ticks : List (Tick α)) (r : Result α) : Prop where
  times : r.times = ticks.map (·.time)
  mids : r.mids = ticks.map (·.mid)
  length_positions : r.positions.length = ticks.length
  length_returns : r.returns.length = ticks.length
  length_cumulativeReturns : r.cumulativeReturns.length = ticks.length
  first : ∀ trade, r.trades.head? = some trade → trade.before = .flat
  linked : r.trades.IsChain fun a b => b.before = a.after
  sizes : ∀ trade ∈ r.trades,
    trade.before ≠ trade.after ∧ trade.size = trade.after.units - trade.before.units
  entries : List.Forall₂ (TradeAt ticks r.positions) (changes r.positions) r.trades
  numTrades : r.metrics.numTrades = r.trades.length
  finalPosition : r.positions.getLast? = some r.metrics.finalPosition
  sum_sizes : (r.trades.map (·.size)).sum = r.metrics.finalPosition.units
  totalReturn : r.cumulativeReturns.getLast? = some r.metrics.totalReturn

theorem finalPosition_of (cost : α) (ds : List (Decision α)) :
    (Result.ofDecisions cost ds).metrics.finalPosition = positionAfter .flat ds := by
  show (ds.map (·.after)).getLast?.getD .flat = positionAfter .flat ds
  rw [List.getLast?_map]
  rfl

/-- A chain of decisions has a result that is reconciled. -/
theorem reconciled_ofDecisions (cost : α) {ds : List (Decision α)} (hds : Chained .flat ds)
    (hne : ds ≠ []) : Reconciled (ds.map (·.tick)) (Result.ofDecisions cost ds) where
  times := List.map_map.symm
  mids := List.map_map.symm
  length_positions := by
    show (ds.map (·.after)).length = (ds.map (·.tick)).length
    rw [List.length_map, List.length_map]
  length_returns := by
    show (strategyReturns (ds.map (·.tick.mid)) (ds.map (·.after)) cost).length = _
    rw [length_strategyReturns, List.length_map, List.length_map]
  length_cumulativeReturns := by
    show (cumulativeReturns (strategyReturns (ds.map (·.tick.mid)) _ cost)).length = _
    rw [length_cumulativeReturns, length_strategyReturns, List.length_map, List.length_map]
  first := hds.trades.1
  linked := hds.trades.2
  sizes := fun trade ht => by
    obtain ⟨d, -, hd⟩ := List.mem_filterMap.mp ht
    exact (Decision.trade?_spec hd).2.2
  entries := forall₂_tradeAt hds
  numTrades := rfl
  finalPosition := by
    obtain ⟨d, hd⟩ := Option.ne_none_iff_exists'.mp (mt List.getLast?_eq_none_iff.mp hne)
    rw [finalPosition_of]
    show (ds.map (·.after)).getLast? = _
    unfold positionAfter
    rw [List.getLast?_map, hd]
    rfl
  sum_sizes := by
    rw [finalPosition_of]
    exact hds.sum_size.trans (Int.sub_zero _)
  totalReturn := by
    refine getLast?_cumulativeReturns (fun h0 => hne ?_) _ _
    have hl := congrArg List.length h0
    rw [length_strategyReturns, List.length_map] at hl
    exact List.length_eq_zero_iff.mp hl

/-- **The ledger and the positions describe the same run.** -/
theorem ledger_reconciles {policy : Policy α σ} {p final : σ} {config : Config α}
    {ticks : List (Tick α)} {result : Result α}
    (h : run policy p config ticks = .ok (result, final)) :
    Reconciled (validTicks ticks) result := by
  obtain ⟨henough, -, rfl, -⟩ := result_of_run h
  have hticks := State.ticks_decisionsAt policy (validTicks ticks) (State.start config p)
  conv => arg 1; rw [← hticks]
  refine reconciled_ofDecisions _ (State.chained_decisionsAt policy _ (State.start config p)) ?_
  intro h0
  have hlen := congrArg List.length hticks
  rw [h0] at hlen
  simp only [List.map_nil, List.length_nil] at hlen
  omega

/-- A run that is long, stays long, and turns short has two entries. -/
theorem ledger_of_scripted : ∃ (result : Result Float) (final : List (Option Int)),
    run scripted [some 1, none, some (-1)] ⟨0, 1⟩ quotesWithGap = .ok (result, final) ∧
      Reconciled (validTicks quotesWithGap) result ∧ result.trades.length = 2 := by
  have h := run_of_enough scripted [some 1, none, some (-1)] ⟨0, 1⟩ enough_quotesWithGap
    (by decide)
  exact ⟨_, _, h, ledger_reconciles h, by decide +kernel⟩

end TickBacktest.Backtest
