import Mathlib.Data.List.Find
import TickBacktest.Proofs.Backtest.Ledger
import TickBacktest.Proofs.Backtest.Steering
import TickBacktest.Proofs.Strategy.Failures

/-! # Where the rules lead

A rule fires only on values that are there, and it is decided by the values of the functions that it
names (`Rule.exists_value_of_fires`, `Rule.fires_congr`). A target comes from a rule that fires:
from an entry rule, or, while a position is held, from an exit rule
(`Engine.exists_rule_of_target`).

So the positions of a run are those that its rules lead to (`led_by_rules`): without an entry rule
that buys or sells nothing is ever held, without any rule that buys no position is long, without any
that sells none is short. While none of the functions that the rules name has a value the position
is kept. -/

namespace TickBacktest.Strategy

open Backtest (Config Context Decision Policy Position Result State TradeAt changes)
open Expression (Compiled)
open Market

/-! ## Rules -/

/-- The ids of the functions that some rules name. -/
def namedIn (rules : List Rule) : List String :=
  rules.flatMap fun r => r.conditions.map (·.functionId)

theorem mem_namedIn {rules : List Rule} {r : Rule} (hr : r ∈ rules) {c : Condition}
    (hc : c ∈ r.conditions) : c.functionId ∈ namedIn rules :=
  List.mem_flatMap.mpr ⟨r, hr, List.mem_map_of_mem hc⟩

theorem Condition.exists_value_of_isMet {c : Condition} {value : Option Float}
    (h : c.isMet value = true) : ∃ x, value = some x := by
  rcases value with _ | x
  · cases h
  · exact ⟨x, rfl⟩

/-- A rule with some conditions fires if they are met as its logic asks. -/
theorem Rule.fires_iff {r : Rule} {value : String → Option Float} :
    r.fires value = true ↔ r.conditions ≠ [] ∧
      ((r.logic = .and ∧ ∀ c ∈ r.conditions, c.isMet (value c.functionId) = true) ∨
        (r.logic = .or ∧ ∃ c ∈ r.conditions, c.isMet (value c.functionId) = true)) := by
  obtain ⟨cs, logic, action⟩ := r
  rcases cs with _ | ⟨c, cs⟩
  · simp [fires]
  · cases logic with
    | and => simp [fires]
    | or => simp [fires]

/-- A rule is decided by the values that it names. -/
theorem Rule.fires_congr {r : Rule} {value value' : String → Option Float}
    (h : ∀ c ∈ r.conditions, value c.functionId = value' c.functionId) :
    r.fires value = r.fires value' := by
  have hall : (∀ c ∈ r.conditions, c.isMet (value c.functionId) = true) ↔
      ∀ c ∈ r.conditions, c.isMet (value' c.functionId) = true :=
    forall₂_congr fun c hc => by rw [h c hc]
  have hany : (∃ c ∈ r.conditions, c.isMet (value c.functionId) = true) ↔
      ∃ c ∈ r.conditions, c.isMet (value' c.functionId) = true :=
    exists_congr fun c => and_congr_right fun hc => by rw [h c hc]
  rw [Bool.eq_iff_iff, fires_iff, fires_iff, hall, hany]

/-- A rule does not fire without a value. -/
theorem Rule.exists_value_of_fires {r : Rule} {value : String → Option Float}
    (h : r.fires value = true) : ∃ c ∈ r.conditions, ∃ x, value c.functionId = some x := by
  obtain ⟨hne, ⟨-, hall⟩ | ⟨-, c, hc, hmet⟩⟩ := fires_iff.mp h
  · obtain ⟨c, hc⟩ := List.exists_mem_of_ne_nil _ hne
    exact ⟨c, hc, Condition.exists_value_of_isMet (hall c hc)⟩
  · exact ⟨c, hc, Condition.exists_value_of_isMet hmet⟩

/-- What an action asks for, if it asks for a position. -/
theorem Action.ofTarget_of_target {a : Action} {target : Int} (h : a.target = some target) :
    (a = .buy ∧ Position.ofTarget target = .long) ∨
      (a = .sell ∧ Position.ofTarget target = .short) ∨
      (a = .flat ∧ Position.ofTarget target = .flat) := by
  cases a with
  | buy => cases h; exact .inl ⟨rfl, rfl⟩
  | sell => cases h; exact .inr (.inl ⟨rfl, rfl⟩)
  | flat => cases h; exact .inr (.inr ⟨rfl, rfl⟩)
  | hold => cases h

namespace Engine

variable {e : Engine}

/-! ## Targets -/

theorem exists_rule_of_firstFiring {rules : List Rule} {vs : FunctionValues} {a : Action}
    (h : firstFiring rules vs = some a) : ∃ r ∈ rules, r.fires vs.value = true ∧ r.action = a := by
  obtain ⟨r, hr, rfl⟩ := Option.map_eq_some_iff.mp h
  have hfires := @List.find?_some _ (fun r : Rule => r.fires vs.value) _ _ hr
  exact ⟨r, List.mem_of_find?_eq_some hr, hfires, rfl⟩

/-- **A target comes from a rule that fires**, an exit rule only while a position is held. -/
theorem exists_rule_of_target {position : Position} {vs : FunctionValues} {target : Int}
    (h : e.target position vs = some target) :
    (∃ r ∈ e.entryRules, r.fires vs.value = true ∧ r.action.target = some target) ∨
      (position ≠ .flat ∧
        ∃ r ∈ e.exitRules, r.fires vs.value = true ∧ r.action.target = some target) := by
  unfold Engine.target at h
  split at h
  case h_1 action hentry =>
    obtain ⟨r, hr, hfires, rfl⟩ := exists_rule_of_firstFiring hentry
    exact .inl ⟨r, hr, hfires, h⟩
  case h_2 =>
    split_ifs at h with hflat
    obtain ⟨action, hexit, htarget⟩ := Option.bind_eq_some_iff.mp h
    obtain ⟨r, hr, hfires, rfl⟩ := exists_rule_of_firstFiring hexit
    exact .inr ⟨hflat, r, hr, hfires, htarget⟩

theorem firstFiring_congr {rules : List Rule} {vs vs' : FunctionValues}
    (h : ∀ id ∈ namedIn rules, vs.value id = vs'.value id) :
    firstFiring rules vs = firstFiring rules vs' := by
  unfold firstFiring
  rw [List.find?_congr fun r hr => Rule.fires_congr fun c hc => h _ (mem_namedIn hr hc)]

/-- **A target depends on the functions that the rules name.** -/
theorem target_congr {e' : Engine} (hentry : e.entryRules = e'.entryRules)
    (hexit : e.exitRules = e'.exitRules) (position : Position) {vs vs' : FunctionValues}
    (h : ∀ id ∈ namedIn (e.entryRules ++ e.exitRules), vs.value id = vs'.value id) :
    e.target position vs = e'.target position vs' := by
  unfold namedIn at h
  rw [List.flatMap_append] at h
  have hentries := firstFiring_congr fun id hid => h id (List.mem_append_left _ hid)
  have hexits := firstFiring_congr fun id hid => h id (List.mem_append_right _ hid)
  unfold Engine.target
  rw [hentries, hexits, hentry, hexit]

/-- The value of an id is that of its function. -/
theorem value_evaluate (e : Engine) (values : Values Float) (history : History Float)
    (ds : Diagnostics) (id : String) : (e.evaluate values history ds).1.value id =
      (e.compiled? id).bind fun c => valueOf (c.evaluate values history) := by
  unfold evaluate outcomes FunctionValues.value compiled?
  dsimp only
  rw [List.map_map, ← List.map_reverse, List.find?_map, Option.bind_map, Option.bind_map]
  rfl

/-- **There is no target where no function that the rules name has a value.** -/
theorem no_target {values : Values Float} {history : History Float}
    (h : ∀ p ∈ e.functions, p.1 ∈ namedIn (e.entryRules ++ e.exitRules) →
      ∀ x, p.2.evaluate values history ≠ .ok (some x)) (position : Position) (ds : Diagnostics) :
    (e.decide position values history ds).1 = none := by
  by_contra hne
  obtain ⟨target, htarget⟩ := Option.ne_none_iff_exists'.mp hne
  obtain ⟨r, hr, hfires⟩ : ∃ r ∈ e.entryRules ++ e.exitRules,
      r.fires (e.evaluate values history ds).1.value = true := by
    rcases exists_rule_of_target htarget with ⟨r, hr, hfires, -⟩ | ⟨-, r, hr, hfires, -⟩
    · exact ⟨r, List.mem_append_left _ hr, hfires⟩
    · exact ⟨r, List.mem_append_right _ hr, hfires⟩
  obtain ⟨c, hc, x, hx⟩ := Rule.exists_value_of_fires hfires
  rw [value_evaluate] at hx
  obtain ⟨f, hf, hvalue⟩ := Option.bind_eq_some_iff.mp hx
  refine h _ (mem_of_compiled? hf) (mem_namedIn hr hc) x ?_
  rcases hout : f.evaluate values history with fault | v
  · rw [hout] at hvalue
    cases hvalue
  · rw [hout] at hvalue
    exact congrArg Except.ok hvalue

/-! ## Positions -/

/-- Exit rules do not lead out of a flat position. -/
theorem keeps_flat (h : ∀ r ∈ e.entryRules, r.action ≠ .buy ∧ r.action ≠ .sell) :
    e.policy.Keeps (· = .flat) := by
  intro c ds target hflat htarget
  rcases exists_rule_of_target htarget with ⟨r, hr, -, ha⟩ | ⟨hne, -⟩
  · obtain ⟨hbuy, hsell⟩ := h r hr
    rcases Action.ofTarget_of_target ha with ⟨h, -⟩ | ⟨h, -⟩ | ⟨-, h⟩
    · exact absurd h hbuy
    · exact absurd h hsell
    · exact h
  · exact absurd hflat hne

/-- No rule leads to a position that only an action of no rule asks for. -/
theorem keeps_ne {a : Action} {held : Position}
    (hlead : ∀ b target, Action.target b = some target → Position.ofTarget target = held → b = a)
    (h : ∀ r ∈ e.entryRules ++ e.exitRules, r.action ≠ a) : e.policy.Keeps (· ≠ held) := by
  intro c ds target _ htarget hheld
  rcases exists_rule_of_target htarget with ⟨r, hr, -, ha⟩ | ⟨-, r, hr, -, ha⟩
  · exact h r (List.mem_append_left _ hr) (hlead _ _ ha hheld)
  · exact h r (List.mem_append_right _ hr) (hlead _ _ ha hheld)

theorem keeps_ne_long (h : ∀ r ∈ e.entryRules ++ e.exitRules, r.action ≠ .buy) :
    e.policy.Keeps (· ≠ .long) := by
  refine keeps_ne (fun b target hb hheld => ?_) h
  rcases Action.ofTarget_of_target hb with ⟨h, -⟩ | ⟨-, h⟩ | ⟨-, h⟩
  · exact h
  · cases h.symm.trans hheld
  · cases h.symm.trans hheld

theorem keeps_ne_short (h : ∀ r ∈ e.entryRules ++ e.exitRules, r.action ≠ .sell) :
    e.policy.Keeps (· ≠ .short) := by
  refine keeps_ne (fun b target hb hheld => ?_) h
  rcases Action.ofTarget_of_target hb with ⟨-, h⟩ | ⟨h, -⟩ | ⟨-, h⟩
  · cases h.symm.trans hheld
  · exact h
  · cases h.symm.trans hheld

end Engine

/-! ## Runs -/

/-- **The positions of a run are those that the rules lead to.** A tick is told by what the policy
sees there; the ledger has an entry for each tick at which the position changes, and no others. -/
structure LedByRules (d : Definition) (e : Engine) (config : Config Float)
    (ticks : List (Tick Float)) (result : Result Float) : Prop where
  idle : (∀ r ∈ d.entryRules, r.action ≠ .buy ∧ r.action ≠ .sell) →
    result.trades = [] ∧ ∀ p ∈ result.positions, p = .flat
  not_long : (∀ r ∈ d.entryRules ++ d.exitRules, r.action ≠ .buy) →
    ∀ p ∈ result.positions, p ≠ .long
  not_short : (∀ r ∈ d.entryRules ++ d.exitRules, r.action ≠ .sell) →
    ∀ p ∈ result.positions, p ≠ .short
  entries : List.Forall₂ (TradeAt (validTicks ticks) result.positions) (changes result.positions)
    result.trades
  kept : ∀ i c, ((State.start config []).contextsAt e.policy (validTicks ticks))[i]? = some c →
    (∀ p ∈ e.functions, p.1 ∈ namedIn (d.entryRules ++ d.exitRules) →
      ∀ x, p.2.evaluate c.current c.history.view ≠ .ok (some x)) →
    result.positions[i]? = (Position.flat :: result.positions)[i]? ∧ i ∉ changes result.positions

namespace Engine

variable {e : Engine} (cost : Float) {s : State Float Diagnostics} (ts : List (Tick Float))

/-- A run stays in the positions that its policy keeps. -/
theorem forall_positions_of_keeps {P : Position → Prop} (hkeeps : e.policy.Keeps P)
    (hs : P s.position) :
    ∀ p ∈ (Result.ofDecisions cost (s.decisionsAt e.policy ts)).positions, P p := by
  intro p hp
  obtain ⟨d, hd, rfl⟩ := List.mem_map.mp hp
  exact (State.forall_decisionsAt_of_keeps hkeeps ts hs d hd).2

/-- A run that stays flat has no trades. -/
theorem trades_eq_nil (hkeeps : e.policy.Keeps (· = .flat)) (hs : s.position = .flat) :
    (Result.ofDecisions cost (s.decisionsAt e.policy ts)).trades = [] := by
  refine List.filterMap_eq_nil_iff.mpr fun d hd => Decision.trade?_eq_none ?_
  obtain ⟨hbefore, hafter⟩ := State.forall_decisionsAt_of_keeps hkeeps ts hs d hd
  exact hbefore.trans hafter.symm

/-- At a tick without a target a run keeps its position. -/
theorem positions_of_no_target (hs : s.position = .flat) {i : ℕ} {c : Context Float}
    (hc : (s.contextsAt e.policy ts)[i]? = some c) (hnone : ∀ ds, (e.policy c ds).1 = none) :
    let positions := (Result.ofDecisions cost (s.decisionsAt e.policy ts)).positions
    positions[i]? = (Position.flat :: positions)[i]? := by
  obtain ⟨d, hd, hkept⟩ := State.exists_decision_of_no_target ts hc hnone
  have hlt := (List.getElem?_eq_some_iff.mp hd).1
  have hbefore := (State.chained_decisionsAt e.policy ts s).before_eq i hlt
  rw [hs, hd, Option.map_some] at hbefore
  show ((s.decisionsAt e.policy ts).map (·.after))[i]? = _
  rw [List.getElem?_map, hd, Option.map_some, hkept]
  exact hbefore

end Engine

/-- **Positions never go where no rule leads.** Over two valid ticks there is a run, and it is led
by the rules, unless its history is too long to be made: it crashes then, and takes no position. -/
theorem led_by_rules {d : Definition} (hd : d.Compiles) (config : Config Float)
    {ticks : List (Tick Float)} (h : 2 ≤ (validTicks ticks).length) :
    ∃ e, Engine.ofDefinition d = .ok e ∧
      ((SeriesBuffer.capacityBound ≤ config.historyLength ∧
        run ticks d config = .error (.fault (.capacityOverflow ⟨⟩))) ∨
      (config.historyLength < SeriesBuffer.capacityBound ∧
        ∃ r, run ticks d config = .ok r ∧ LedByRules d e config ticks r.result)) := by
  obtain ⟨e, he⟩ := compiles_iff.mp hd
  refine ⟨e, he, ?_⟩
  rcases Nat.lt_or_ge config.historyLength SeriesBuffer.capacityBound with hfits | hlong
  case inr => exact .inl ⟨hlong, run_of_overflow config he h hlong⟩
  refine .inr ⟨hfits, _, run_of_enough config he h hfits, ?_⟩
  obtain ⟨hentry, hexit⟩ := Engine.rules_eq he
  constructor
  case idle =>
    intro hidle
    rw [← hentry] at hidle
    have hkeeps := Engine.keeps_flat hidle
    exact ⟨Engine.trades_eq_nil _ _ hkeeps rfl, Engine.forall_positions_of_keeps _ _ hkeeps rfl⟩
  case not_long =>
    intro hbuy
    rw [← hentry, ← hexit] at hbuy
    exact Engine.forall_positions_of_keeps _ _ (Engine.keeps_ne_long hbuy) Position.noConfusion
  case not_short =>
    intro hsell
    rw [← hentry, ← hexit] at hsell
    exact Engine.forall_positions_of_keeps _ _ (Engine.keeps_ne_short hsell) Position.noConfusion
  case entries =>
    have hentries := Backtest.forall₂_tradeAt
      (State.chained_decisionsAt e.policy (validTicks ticks) (State.start config []))
    rw [State.ticks_decisionsAt] at hentries
    exact hentries
  case kept =>
    intro i c hc hnone
    rw [← hentry, ← hexit] at hnone
    have hkept := Engine.positions_of_no_target config.transactionCost (validTicks ticks) rfl hc
      (Engine.no_target hnone c.position)
    refine ⟨hkept, fun hi => ?_⟩
    exact absurd hkept (by simpa using (List.mem_filter.mp hi).2)

/-- Buys when the price is not its average over three ticks. -/
def offAverage : Definition where
  name := "Off average"
  functions := belowAverage.functions
  entryRules := [⟨[⟨"ratio", .ne, 1⟩], .or, .buy⟩]
  exitRules := []

/-- Two ticks have no average over three, and having no value is not a difference. -/
theorem led_by_rules_offAverage : offAverage.Compiles ∧
    2 ≤ (validTicks (ticksOfMids ([100, 101] : List Float) 1)).length ∧
    ∃ e r, Engine.ofDefinition offAverage = .ok e ∧
      run (ticksOfMids [100, 101] 1) offAverage ⟨0, 5⟩ = .ok r ∧
      LedByRules offAverage e ⟨0, 5⟩ (ticksOfMids [100, 101] 1) r.result ∧
      r.result.positions = [.flat, .flat] := by
  have hc : offAverage.Compiles := by decide +kernel
  have hs : 2 ≤ (validTicks (ticksOfMids ([100, 101] : List Float) 1)).length := by decide +kernel
  obtain ⟨e, he, ⟨hlong, -⟩ | ⟨-, r, hr, hled⟩⟩ := led_by_rules hc ⟨0, 5⟩ hs
  · exact absurd hlong (by decide)
  obtain ⟨r', hr', hflat⟩ : ∃ r, run (ticksOfMids [100, 101] 1) offAverage ⟨0, 5⟩ = .ok r ∧
      r.result.positions = [.flat, .flat] := by
    decide +kernel
  have heq : r = r' := Except.ok.inj (hr.symm.trans hr')
  exact ⟨hc, hs, e, r, he, hr, hled, heq ▸ hflat⟩

end TickBacktest.Strategy
