import TickBacktest.Proofs.Backtest.Replay

/-! # Targets steer a run

All that a run takes from its policy are the targets that it asks for. Policies that ask for the
same targets, whatever else they keep in mind, take the same course (`SameCourse.decisionsAt_eq`,
`SameCourse.contextsAt_eq`). Where no target leads out of some positions, the run stays in them
(`forall_decisionsAt_of_keeps`), and at a tick without a target it stays where it is
(`exists_decision_of_no_target`). -/

namespace TickBacktest.Backtest

open Market

variable {α σ τ : Type} [Scalar α]

/-! ## The same targets -/

/-- The policies ask for the same target in every context, whatever their states. -/
def Policy.SameTargets (policy : Policy α σ) (policy' : Policy α τ) : Prop :=
  ∀ c p p', (policy c p).1 = (policy' c p').1

/-- States of two runs that differ in the states of the policies alone. -/
structure State.SameCourse (s : State α σ) (s' : State α τ) : Prop where
  history : s.history = s'.history
  position : s.position = s'.position
  decisions : s.decisions = s'.decisions

namespace State.SameCourse

omit [Scalar α] in
theorem start (config : Config α) (p : σ) (p' : τ) :
    (State.start config p).SameCourse (State.start config p') :=
  ⟨rfl, rfl, rfl⟩

variable {policy : Policy α σ} {policy' : Policy α τ} {s : State α σ} {s' : State α τ}

theorem context_eq (h : s.SameCourse s') (t : Tick α) : s.context t = s'.context t := by
  unfold State.context
  rw [h.history, h.position, h.decisions]

variable (hsame : policy.SameTargets policy')
include hsame

/-- **A tick keeps the runs on the same course.** -/
theorem step (h : s.SameCourse s') (t : Tick α) :
    (s.step policy t).SameCourse (s'.step policy' t) := by
  have hposition : (s.step policy t).position = (s'.step policy' t).position := by
    rw [position_step, position_step, h.context_eq, hsame _ _ s'.policyState, h.position]
  constructor
  · rw [history_step, history_step, h.history]
  · exact hposition
  · rw [decisions_step, decisions_step, h.decisions, h.position, hposition]

theorem decisionsAt_eq (ts : List (Tick α)) : ∀ {s : State α σ} {s' : State α τ},
    s.SameCourse s' → s.decisionsAt policy ts = s'.decisionsAt policy' ts := by
  induction ts with
  | nil => intro s s' _; rfl
  | cons t ts ih =>
    intro s s' h
    have hstep := step hsame h t
    rw [decisionsAt, decisionsAt, h.position, hstep.position, ih hstep]

theorem contextsAt_eq (ts : List (Tick α)) : ∀ {s : State α σ} {s' : State α τ},
    s.SameCourse s' → s.contextsAt policy ts = s'.contextsAt policy' ts := by
  induction ts with
  | nil => intro s s' _; rfl
  | cons t ts ih =>
    intro s s' h
    rw [contextsAt, contextsAt, h.context_eq, ih (step hsame h t)]

end State.SameCourse

/-! ## Positions that are kept -/

/-- No target that the policy asks for leads out of the positions. -/
def Policy.Keeps (P : Position → Prop) (policy : Policy α σ) : Prop :=
  ∀ c p target, P c.position → (policy c p).1 = some target → P (.ofTarget target)

variable {policy : Policy α σ} {P : Position → Prop}

theorem State.position_step_of_keeps (hkeeps : policy.Keeps P) {s : State α σ} (h : P s.position)
    (t : Tick α) : P (s.step policy t).position := by
  rw [position_step]
  rcases htarget : (policy (s.context t) s.policyState).1 with _ | target
  · exact h
  · exact hkeeps (s.context t) s.policyState target h htarget

/-- **A run stays in the positions that its policy keeps.** -/
theorem State.forall_decisionsAt_of_keeps (hkeeps : policy.Keeps P) (ts : List (Tick α)) :
    ∀ {s : State α σ}, P s.position →
      ∀ d ∈ s.decisionsAt policy ts, P d.before ∧ P d.after := by
  induction ts with
  | nil => intro s _ d hd; cases hd
  | cons t ts ih =>
    intro s h d hd
    have hstep := position_step_of_keeps hkeeps h t
    rcases List.mem_cons.mp hd with rfl | hd
    · exact ⟨h, hstep⟩
    · exact ih hstep d hd

/-- **Without a target a run stays where it is.** -/
theorem State.exists_decision_of_no_target (ts : List (Tick α)) : ∀ {s : State α σ} {i : ℕ}
    {c : Context α}, (s.contextsAt policy ts)[i]? = some c → (∀ p, (policy c p).1 = none) →
      ∃ d, (s.decisionsAt policy ts)[i]? = some d ∧ d.after = d.before := by
  induction ts with
  | nil => intro s i c hc; cases hc
  | cons t ts ih =>
    intro s i c hc hnone
    rcases i with _ | i
    · cases hc
      refine ⟨_, rfl, ?_⟩
      show (s.step policy t).position = s.position
      rw [position_step, hnone]
      rfl
    · rw [contextsAt, List.getElem?_cons_succ] at hc
      obtain ⟨d, hd, hkept⟩ := ih hc hnone
      exact ⟨d, by rw [decisionsAt, List.getElem?_cons_succ, hd], hkept⟩

end TickBacktest.Backtest
