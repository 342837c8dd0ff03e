import Mathlib.Data.List.Basic
import TickBacktest.Backtest.Run
import TickBacktest.Proofs.Market.Windows

/-! # The course of a run

A run is the fold of its step over the valid ticks. `State.after` is the state after some ticks,
`State.contextsAt` and `State.decisionsAt` list what the policy sees and what is decided at each of
them. What is known of the state after some ticks:

* its decisions are the earlier ones and those at the ticks (`decisions_after`);
* its history has recorded the values of the ticks, whatever the policy did (`history_after`);
* its position is the one that the last decision left (`position_after`).

The decisions at the ticks form a chain (`chained_decisionsAt`): each starts from the position where
the one before it ended. Of a run nothing else is needed to reconcile its results
(`run_of_enough`). It has no results where there are too few ticks (`run_of_few`) or its history is
too long to be made (`run_of_overflow`). -/

namespace TickBacktest.Backtest

open Market

/-! ## Chains of decisions -/

/-- Each decision takes up the position that the one before it left, the first one `held`. -/
def Chained {α : Type} : Position → List (Decision α) → Prop
  | _, [] => True
  | held, d :: ds => d.before = held ∧ Chained d.after ds

/-- The position after some decisions, when `held` is the one before them. -/
def positionAfter {α : Type} (held : Position) (ds : List (Decision α)) : Position :=
  (ds.getLast?.map (·.after)).getD held

section

variable {α : Type}

@[simp] theorem positionAfter_nil (held : Position) :
    positionAfter held ([] : List (Decision α)) = held := rfl

@[simp] theorem positionAfter_cons (held : Position) (d : Decision α) (ds : List (Decision α)) :
    positionAfter held (d :: ds) = positionAfter d.after ds := by
  unfold positionAfter
  rw [List.getLast?_cons]
  cases ds.getLast? <;> rfl

theorem positionAfter_take (ds : List (Decision α)) : ∀ (held : Position) (i : ℕ),
    i ≤ ds.length →
      (held :: ds.map (·.after))[i]? = some (positionAfter held (ds.take i)) := by
  induction ds with
  | nil =>
    intro held i hi
    have h0 : i = 0 := by simpa using hi
    rw [h0]
    rfl
  | cons d ds ih =>
    intro held i hi
    rcases i with _ | i
    · rfl
    · have hi' : i ≤ ds.length := by simpa using hi
      rw [List.map_cons, List.getElem?_cons_succ, List.take_succ_cons, positionAfter_cons]
      exact ih d.after i hi'

/-- In a chain, what is held before each decision is what was left by the one before. -/
theorem Chained.before_eq {held : Position} {ds : List (Decision α)} (h : Chained held ds) :
    ∀ i : ℕ, i < ds.length → ds[i]?.map (·.before) = (held :: ds.map (·.after))[i]? := by
  induction ds generalizing held with
  | nil => intro i hi; simp at hi
  | cons d ds ih =>
    obtain ⟨hd, hds⟩ := h
    intro i hi
    rcases i with _ | i
    · rw [List.getElem?_cons_zero, List.getElem?_cons_zero, Option.map_some, hd]
    · rw [List.getElem?_cons_succ, List.getElem?_cons_succ, List.map_cons]
      exact ih hds i (by simpa using hi)

end

/-! ## Ticks and their values -/

variable {α σ : Type} [Scalar α]

/-- The values of ticks that follow a tick with the middle price `previous`. -/
def valuesFrom (previous : Option α) : List (Tick α) → List (Values α)
  | [] => []
  | t :: ts => .ofTick t previous :: valuesFrom (some t.mid) ts

theorem length_valuesFrom (ts : List (Tick α)) :
    ∀ previous : Option α, (valuesFrom previous ts).length = ts.length := by
  induction ts with
  | nil => intro previous; rfl
  | cons t ts ih => intro previous; rw [valuesFrom, List.length_cons, ih, List.length_cons]

theorem valuesFrom_take (ts : List (Tick α)) : ∀ (previous : Option α) (i : ℕ),
    valuesFrom previous (ts.take i) = (valuesFrom previous ts).take i := by
  induction ts with
  | nil => intro previous i; rw [List.take_nil, valuesFrom, List.take_nil]
  | cons t ts ih =>
    intro previous i
    rcases i with _ | i
    · rfl
    · rw [List.take_succ_cons, valuesFrom, valuesFrom, ih, List.take_succ_cons]

namespace State

variable (policy : Policy α σ)

/-- The run after some ticks. -/
def after (s : State α σ) (ts : List (Tick α)) : State α σ := ts.foldl (State.step policy) s

/-- What the policy decides at each of some ticks. -/
def decisionsAt (s : State α σ) : List (Tick α) → List (Decision α)
  | [] => []
  | t :: ts => ⟨t, s.position, (s.step policy t).position⟩ :: (s.step policy t).decisionsAt ts

/-- What the policy sees at each of some ticks. -/
def contextsAt (s : State α σ) : List (Tick α) → List (Context α)
  | [] => []
  | t :: ts => s.context t :: (s.step policy t).contextsAt ts

/-! ## One tick -/

theorem history_step (s : State α σ) (t : Tick α) :
    (s.step policy t).history = s.history.record (.ofTick t s.history.lastMid) := rfl

theorem position_step (s : State α σ) (t : Tick α) : (s.step policy t).position =
    ((policy (s.context t) s.policyState).1.map Position.ofTarget).getD s.position := by
  unfold State.step
  dsimp only
  rcases (policy (s.context t) s.policyState).1 with _ | target <;> rfl

theorem decisions_step (s : State α σ) (t : Tick α) :
    (s.step policy t).decisions =
      s.decisions.push ⟨t, s.position, (s.step policy t).position⟩ := rfl

/-! ## Many ticks -/

@[simp] theorem after_nil (s : State α σ) : s.after policy [] = s := rfl

@[simp] theorem after_cons (s : State α σ) (t : Tick α) (ts : List (Tick α)) :
    s.after policy (t :: ts) = (s.step policy t).after policy ts := rfl

theorem decisions_after (ts : List (Tick α)) : ∀ s : State α σ,
    (s.after policy ts).decisions.toList = s.decisions.toList ++ s.decisionsAt policy ts := by
  induction ts with
  | nil => intro s; rw [after_nil, decisionsAt, List.append_nil]
  | cons t ts ih =>
    intro s
    rw [after_cons, ih, decisions_step, Array.toList_push, List.append_assoc,
      List.singleton_append, decisionsAt]

theorem length_decisionsAt (ts : List (Tick α)) :
    ∀ s : State α σ, (s.decisionsAt policy ts).length = ts.length := by
  induction ts with
  | nil => intro s; rfl
  | cons t ts ih => intro s; rw [decisionsAt, List.length_cons, ih, List.length_cons]

theorem size_decisions_after (s : State α σ) (ts : List (Tick α)) :
    (s.after policy ts).decisions.size = s.decisions.size + ts.length := by
  rw [← Array.length_toList, decisions_after, List.length_append, length_decisionsAt,
    Array.length_toList]

theorem history_after (ts : List (Tick α)) : ∀ s : State α σ,
    (s.after policy ts).history =
      s.history.recordAll (valuesFrom s.history.lastMid ts) := by
  induction ts with
  | nil => intro s; rfl
  | cons t ts ih =>
    intro s
    rw [after_cons, ih, history_step, TickHistory.lastMid_record, valuesFrom,
      TickHistory.recordAll_cons]
    rfl

theorem position_after (ts : List (Tick α)) : ∀ s : State α σ,
    (s.after policy ts).position = positionAfter s.position (s.decisionsAt policy ts) := by
  induction ts with
  | nil => intro s; rfl
  | cons t ts ih => intro s; rw [after_cons, ih, decisionsAt, positionAfter_cons]

/-- **The decisions of a run form a chain.** -/
theorem chained_decisionsAt (ts : List (Tick α)) :
    ∀ s : State α σ, Chained s.position (s.decisionsAt policy ts) := by
  induction ts with
  | nil => intro s; trivial
  | cons t ts ih => intro s; exact ⟨rfl, ih (s.step policy t)⟩

theorem ticks_decisionsAt (ts : List (Tick α)) :
    ∀ s : State α σ, (s.decisionsAt policy ts).map (·.tick) = ts := by
  induction ts with
  | nil => intro s; rfl
  | cons t ts ih => intro s; rw [decisionsAt, List.map_cons, ih]

theorem decisionsAt_append (ts us : List (Tick α)) : ∀ s : State α σ,
    s.decisionsAt policy (ts ++ us) =
      s.decisionsAt policy ts ++ (s.after policy ts).decisionsAt policy us := by
  induction ts with
  | nil => intro s; rfl
  | cons t ts ih =>
    intro s
    rw [List.cons_append, decisionsAt, decisionsAt, ih, List.cons_append, after_cons]

theorem take_decisionsAt (s : State α σ) (ts : List (Tick α)) (i : ℕ) :
    (s.decisionsAt policy ts).take i = s.decisionsAt policy (ts.take i) := by
  have h : s.decisionsAt policy ts = s.decisionsAt policy (ts.take i ++ ts.drop i) := by
    rw [List.take_append_drop]
  by_cases hi : i ≤ ts.length
  · rw [h, decisionsAt_append]
    refine List.take_left' ?_
    rw [length_decisionsAt, List.length_take]
    omega
  · have hlen : ts.length ≤ i := by omega
    rw [List.take_of_length_le hlen, List.take_of_length_le]
    rw [length_decisionsAt]
    exact hlen

/-- What the policy sees at a tick depends on the state after the ticks before it. -/
theorem getElem?_contextsAt (ts : List (Tick α)) : ∀ (s : State α σ) (i : ℕ),
    (s.contextsAt policy ts)[i]? = ts[i]?.map (s.after policy (ts.take i)).context := by
  induction ts with
  | nil => intro s i; rfl
  | cons t ts ih =>
    intro s i
    rcases i with _ | i
    · rfl
    · rw [contextsAt, List.getElem?_cons_succ, List.getElem?_cons_succ, ih, List.take_succ_cons,
        after_cons]

/-- The values shown at the ticks are theirs, whatever the policy does. -/
theorem current_contextsAt (ts : List (Tick α)) : ∀ s : State α σ,
    (s.contextsAt policy ts).map (·.current) = valuesFrom s.history.lastMid ts := by
  induction ts with
  | nil => intro s; rfl
  | cons t ts ih =>
    intro s
    rw [contextsAt, List.map_cons, ih, history_step, TickHistory.lastMid_record, valuesFrom]
    rfl

end State

/-! ## Whole runs -/

section

variable (policy : Policy α σ) (p : σ) (config : Config α) {ticks : List (Tick α)}

theorem run_of_few (h : (validTicks ticks).length < 2) :
    run policy p config ticks = .error (.tooFewTicks ⟨(validTicks ticks).length⟩) := by
  unfold run
  exact if_pos h

/-- **A run crashes whose history is too long to be made**, if there are ticks enough. -/
theorem run_of_overflow (h : 2 ≤ (validTicks ticks).length)
    (hlong : SeriesBuffer.capacityBound ≤ config.historyLength) :
    run policy p config ticks = .error (.capacityOverflow ⟨⟩) := by
  unfold run
  dsimp only
  rw [if_neg (Nat.not_lt.mpr h),
    TickHistory.ofCapacity_of_le (hlong.trans (Nat.le_max_left _ _))]

/-- **A run with enough ticks succeeds** with the result of its decisions, if its history can be
made. -/
theorem run_of_enough (h : 2 ≤ (validTicks ticks).length)
    (hfits : config.historyLength < SeriesBuffer.capacityBound) :
    run policy p config ticks =
      .ok (.ofDecisions config.transactionCost
          ((State.start config p).decisionsAt policy (validTicks ticks)),
        ((State.start config p).after policy (validTicks ticks)).policyState) := by
  have hd := State.decisions_after policy (validTicks ticks) (State.start config p)
  have h0 : (State.start config p).decisions.toList = [] := rfl
  rw [h0, List.nil_append] at hd
  have hmax : max config.historyLength 1 < SeriesBuffer.capacityBound :=
    Nat.max_lt.mpr ⟨hfits, by decide⟩
  unfold run
  dsimp only
  rw [if_neg (Nat.not_lt.mpr h), TickHistory.ofCapacity_of_lt hmax, ← hd]
  rfl

end

/-- **How a run ends**: without enough ticks, in a crash, or with the result of its decisions. -/
theorem run_cases (policy : Policy α σ) (p : σ) (config : Config α) (ticks : List (Tick α)) :
    ((validTicks ticks).length < 2 ∧
      run policy p config ticks = .error (.tooFewTicks ⟨(validTicks ticks).length⟩)) ∨
    (2 ≤ (validTicks ticks).length ∧ SeriesBuffer.capacityBound ≤ config.historyLength ∧
      run policy p config ticks = .error (.capacityOverflow ⟨⟩)) ∨
    (2 ≤ (validTicks ticks).length ∧ config.historyLength < SeriesBuffer.capacityBound ∧
      run policy p config ticks =
        .ok (.ofDecisions config.transactionCost
            ((State.start config p).decisionsAt policy (validTicks ticks)),
          ((State.start config p).after policy (validTicks ticks)).policyState)) := by
  rcases Nat.lt_or_ge (validTicks ticks).length 2 with hfew | henough
  · exact .inl ⟨hfew, run_of_few policy p config hfew⟩
  rcases Nat.lt_or_ge config.historyLength SeriesBuffer.capacityBound with hfits | hlong
  · exact .inr (.inr ⟨henough, hfits, run_of_enough policy p config henough hfits⟩)
  · exact .inr (.inl ⟨henough, hlong, run_of_overflow policy p config henough hlong⟩)

/-- A run that succeeds had enough ticks and a history, and has the result of its decisions. -/
theorem result_of_run {policy : Policy α σ} {p final : σ} {config : Config α}
    {ticks : List (Tick α)} {result : Result α}
    (h : run policy p config ticks = .ok (result, final)) : 2 ≤ (validTicks ticks).length ∧
      config.historyLength < SeriesBuffer.capacityBound ∧
      result = .ofDecisions config.transactionCost
        ((State.start config p).decisionsAt policy (validTicks ticks)) ∧
      final = ((State.start config p).after policy (validTicks ticks)).policyState := by
  rcases run_cases policy p config ticks with ⟨-, hrun⟩ | ⟨-, -, hrun⟩ | ⟨henough, hfits, hrun⟩
  case inr.inr =>
    rw [hrun] at h
    cases h
    exact ⟨henough, hfits, rfl, rfl⟩
  all_goals
    rw [hrun] at h
    cases h

/-- A run has a result exactly when there are two valid ticks and a history. -/
theorem run_ok_iff {policy : Policy α σ} {p : σ} {config : Config α} {ticks : List (Tick α)} :
    (∃ x, run policy p config ticks = .ok x) ↔
      2 ≤ (validTicks ticks).length ∧ config.historyLength < SeriesBuffer.capacityBound := by
  constructor
  · rintro ⟨⟨result, final⟩, h⟩
    obtain ⟨henough, hfits, -, -⟩ := result_of_run h
    exact ⟨henough, hfits⟩
  · rintro ⟨henough, hfits⟩
    exact ⟨_, run_of_enough policy p config henough hfits⟩

/-! ## A run to look at -/

/-- The policy that asks for the targets of a list, one at each tick. -/
def scripted : Policy α (List (Option Int)) := fun _ targets => (targets.head?.join, targets.tail)

/-- Four ticks of which the second one has no price. -/
def quotesWithGap : List (Tick Float) := ticksOfMids [100, 0 / 0, 101, 99] 1

theorem enough_quotesWithGap : 2 ≤ (validTicks quotesWithGap).length := by decide +kernel

end TickBacktest.Backtest
