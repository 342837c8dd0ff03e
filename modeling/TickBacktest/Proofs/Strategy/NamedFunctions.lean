import TickBacktest.Proofs.Strategy.Targets

/-! # Only the functions that are named

Where no id is defined twice, an engine finds under an id what the strategy defines it to be,
wherever in the list it stands (`Engine.compiled?_ofDefinition`). The targets of an engine depend on
the functions that its rules name, and what it records of an id depends on the function of that id
alone (`Engine.get?_policyState_after`).

So strategies with the same rules that agree on the functions named there have the same results,
whatever else they define and in whatever order, and they record the same failures of every id on
which they agree (`sameUpTo_of_agree`). -/

namespace TickBacktest.Strategy

open Backtest (Config Context Result State)
open Expression (Compiled)
open Market

/-! ## Functions by id -/

/-- The expression that a strategy gives to an id. -/
def Definition.expression? (d : Definition) (id : String) : Option String :=
  (d.functions.find? (·.id = id)).map (·.expression)

/-- The strategies give the same expression to the id, or do not define it. -/
def Definition.AgreeOn (d d' : Definition) (id : String) : Prop :=
  d.expression? id = d'.expression? id

instance (d d' : Definition) (id : String) : Decidable (d.AgreeOn d' id) :=
  inferInstanceAs (Decidable (d.expression? id = d'.expression? id))

theorem Definition.expression?_eq_some_iff {d : Definition}
    (hids : (d.functions.map (·.id)).Nodup) {id text : String} :
    d.expression? id = some text ↔ ∃ f ∈ d.functions, f.id = id ∧ f.expression = text := by
  unfold expression?
  rw [Option.map_eq_some_iff]
  simp only [find?_key_eq_some_iff hids, and_assoc]

namespace Engine

/-- **The function of an id is the one that the strategy defines.** -/
theorem compiled?_ofDefinition {d : Definition} {e : Engine} (he : Engine.ofDefinition d = .ok e)
    (hids : (d.functions.map (·.id)).Nodup) {id : String} {c : Compiled} :
    e.compiled? id = some c ↔
      ∃ text, d.expression? id = some text ∧ Expression.compile text = .ok c := by
  rw [compiled?_eq_some_iff (by rwa [ids_eq he]), mem_functions_iff he]
  constructor
  · rintro ⟨f, hf, hid, hc⟩
    exact ⟨_, (Definition.expression?_eq_some_iff hids).mpr ⟨f, hf, hid, rfl⟩, hc⟩
  · rintro ⟨text, htext, hc⟩
    obtain ⟨f, hf, hid, rfl⟩ := (Definition.expression?_eq_some_iff hids).mp htext
    exact ⟨f, hf, hid, hc⟩

/-- Strategies that agree on an id have the same function there. -/
theorem compiled?_congr {d d' : Definition} {e e' : Engine} (he : Engine.ofDefinition d = .ok e)
    (he' : Engine.ofDefinition d' = .ok e') (hids : (d.functions.map (·.id)).Nodup)
    (hids' : (d'.functions.map (·.id)).Nodup) {id : String} (hagree : d.AgreeOn d' id) :
    e.compiled? id = e'.compiled? id := by
  have hexpression : d.expression? id = d'.expression? id := hagree
  refine Option.ext fun c => ?_
  rw [compiled?_ofDefinition he hids, compiled?_ofDefinition he' hids', hexpression]

/-! ## Failures along a run -/

section

variable (e : Engine)

/-- What the functions are evaluated on in some contexts. -/
def inputs (cs : List (Context Float)) : List (Values Float × History Float) :=
  cs.map fun c => (c.current, c.history.view)

/-- A run counts the outcomes of its functions in every context that it comes to. -/
theorem policyState_after (ts : List (Tick Float)) : ∀ s : State Float Diagnostics,
    (s.after e.policy ts).policyState =
      (e.outcomesAt (inputs (s.contextsAt e.policy ts))).foldl count s.policyState := by
  induction ts with
  | nil => intro s; rfl
  | cons t ts ih =>
    intro s
    have hcons : e.outcomesAt (inputs (s.contextsAt e.policy (t :: ts))) =
        e.outcomes (s.context t).current (s.context t).history.view ++
          e.outcomesAt (inputs ((s.step e.policy t).contextsAt e.policy ts)) := rfl
    have hstep : (s.step e.policy t).policyState =
        (e.outcomes (s.context t).current (s.context t).history.view).foldl count
          s.policyState := rfl
    rw [State.after_cons, ih, hcons, List.foldl_append, hstep]

variable {e}

/-- **What a run records of an id** are the faults of its function in the contexts of the run. -/
theorem get?_policyState_after (hids : (e.functions.map (·.1)).Nodup) (ts : List (Tick Float))
    (config : Config Float) (id : String) :
    ((State.start config []).after e.policy ts).policyState.get? id =
      FailureRecord.ofFaults?
        ((inputs ((State.start config []).contextsAt e.policy ts)).filterMap fun x =>
          (e.compiled? id).bind fun c => fault? (c.evaluate x.1 x.2)) := by
  rw [policyState_after]
  exact get?_outcomesAt hids id _

end

/-! ## Engines with the same rules -/

/-- Engines with the same rules that find the same functions under the ids named in them ask for the
same targets. -/
theorem sameTargets {e e' : Engine} (hentry : e.entryRules = e'.entryRules)
    (hexit : e.exitRules = e'.exitRules)
    (hnamed : ∀ id ∈ namedIn (e.entryRules ++ e.exitRules), e.compiled? id = e'.compiled? id) :
    e.policy.SameTargets e'.policy := by
  intro c ds ds'
  have hvalue : ∀ id ∈ namedIn (e.entryRules ++ e.exitRules),
      (e.evaluate c.current c.history.view ds).1.value id =
        (e'.evaluate c.current c.history.view ds').1.value id := by
    intro id hid
    rw [value_evaluate, value_evaluate, hnamed id hid]
  exact target_congr hentry hexit c.position hvalue

end Engine

/-! ## Strategies with the same rules -/

/-- The runs of two strategies have the same result and record the same failures of the ids on which
the strategies agree. -/
structure Run.SameUpTo (d d' : Definition) (r r' : Run) : Prop where
  result : r.result = r'.result
  diagnostics : ∀ id, d.AgreeOn d' id → r.diagnostics.get? id = r'.diagnostics.get? id

/-- **A run depends on the functions that the rules name.** -/
theorem sameUpTo_of_agree {d d' : Definition} (hd : d.Compiles) (hd' : d'.Compiles)
    (hids : (d.functions.map (·.id)).Nodup) (hids' : (d'.functions.map (·.id)).Nodup)
    (hentry : d.entryRules = d'.entryRules) (hexit : d.exitRules = d'.exitRules)
    (hnamed : ∀ id ∈ namedIn (d.entryRules ++ d.exitRules), d.AgreeOn d' id)
    (config : Config Float) (ticks : List (Tick Float)) :
    (∃ few, run ticks d config = .error few ∧ run ticks d' config = .error few) ∨
      ∃ r r', run ticks d config = .ok r ∧ run ticks d' config = .ok r' ∧ r.SameUpTo d d' r' := by
  obtain ⟨e, he⟩ := compiles_iff.mp hd
  obtain ⟨e', he'⟩ := compiles_iff.mp hd'
  have hcompiled : ∀ id, d.AgreeOn d' id → e.compiled? id = e'.compiled? id := fun _ hagree =>
    Engine.compiled?_congr he he' hids hids' hagree
  have hsame : e.policy.SameTargets e'.policy := by
    obtain ⟨h1, h2⟩ := Engine.rules_eq he
    obtain ⟨h1', h2'⟩ := Engine.rules_eq he'
    refine Engine.sameTargets ?_ ?_ ?_
    · rw [h1, h1', hentry]
    · rw [h2, h2', hexit]
    · rw [h1, h2]
      exact fun id hid => hcompiled id (hnamed id hid)
  have hcourse := State.SameCourse.start config ([] : Diagnostics) ([] : Diagnostics)
  rcases Nat.lt_or_ge (validTicks ticks).length 2 with hfew | henough
  · exact .inl ⟨_, run_of_few config he hfew, run_of_few config he' hfew⟩
  rcases Nat.lt_or_ge config.historyLength SeriesBuffer.capacityBound with hfits | hlong
  case inr =>
    exact .inl ⟨_, run_of_overflow config he henough hlong,
      run_of_overflow config he' henough hlong⟩
  refine .inr ⟨_, _, run_of_enough config he henough hfits, run_of_enough config he' henough hfits,
    ?_⟩
  constructor
  case result =>
    show Result.ofDecisions _ _ = Result.ofDecisions _ _
    rw [hcourse.decisionsAt_eq hsame]
  case diagnostics =>
    intro id hagree
    show Diagnostics.get? (State.policyState _) id = Diagnostics.get? (State.policyState _) id
    rw [Engine.get?_policyState_after (by rwa [Engine.ids_eq he]),
      Engine.get?_policyState_after (by rwa [Engine.ids_eq he']),
      hcourse.contextsAt_eq hsame, hcompiled id hagree]

/-- The strategy that buys below the average, with a function before it that no rule names. -/
def belowAverageAfterSpread : Definition :=
  { belowAverage with
    functions := ⟨"spread", "Spread", "SMA(spread, 9)"⟩ :: belowAverage.functions }

theorem sameUpTo_belowAverage : belowAverage.Compiles ∧ belowAverageAfterSpread.Compiles ∧
    (belowAverage.functions.map (·.id)).Nodup ∧
    (belowAverageAfterSpread.functions.map (·.id)).Nodup ∧
    (∀ id ∈ namedIn (belowAverage.entryRules ++ belowAverage.exitRules),
      belowAverage.AgreeOn belowAverageAfterSpread id) ∧
    ¬ belowAverage.AgreeOn belowAverageAfterSpread "spread" ∧
    ∃ r r', run (ticksOfMids [100, 101] 1) belowAverage ⟨0, 5⟩ = .ok r ∧
      run (ticksOfMids [100, 101] 1) belowAverageAfterSpread ⟨0, 5⟩ = .ok r' ∧
      r.SameUpTo belowAverage belowAverageAfterSpread r' := by
  have hd : belowAverage.Compiles := by decide +kernel
  have hd' : belowAverageAfterSpread.Compiles := by decide +kernel
  have hids : (belowAverage.functions.map (·.id)).Nodup := by decide
  have hids' : (belowAverageAfterSpread.functions.map (·.id)).Nodup := by decide
  have hnamed : ∀ id ∈ namedIn (belowAverage.entryRules ++ belowAverage.exitRules),
      belowAverage.AgreeOn belowAverageAfterSpread id := by
    decide
  refine ⟨hd, hd', hids, hids', hnamed, by decide, ?_⟩
  rcases sameUpTo_of_agree hd hd' hids hids' rfl rfl hnamed ⟨0, 5⟩ (ticksOfMids [100, 101] 1) with
    ⟨few, hfew, -⟩ | h
  · have henough : 2 ≤ (validTicks (ticksOfMids ([100, 101] : List Float) 1)).length := by
      decide +kernel
    obtain ⟨r, hr⟩ : ∃ r, run (ticksOfMids [100, 101] 1) belowAverage ⟨0, 5⟩ = .ok r :=
      (run_ok_iff hd).mpr ⟨henough, by decide⟩
    cases hfew.symm.trans hr
  · exact h

end TickBacktest.Strategy
