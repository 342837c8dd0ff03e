import TickBacktest.Proofs.Backtest.Replay
import TickBacktest.Proofs.Outcome
import TickBacktest.Strategy.Engine

/-! # Strategies that compile

A strategy has an engine exactly when all its functions compile (`compiles_iff`). Its run is then
the run of the engine, which reports an error for one reason only: there are fewer than two valid
ticks (`run_of_few`). Otherwise it has a result, if its history can be made (`run_of_enough`), and
else it crashes (`run_of_overflow`). No fault of an evaluation ends a run. -/

namespace TickBacktest.Strategy

open Backtest (Config Result State)
open Market (SeriesBuffer Tick validTicks)

/-! ## Compiling -/

/-- Every function of the strategy has an expression that compiles. -/
def Definition.Compiles (d : Definition) : Prop :=
  ∀ f ∈ d.functions, ∃ c, Expression.compile f.expression = .ok c

/-- The compilation of a function, under its id. -/
def FunctionDefinition.compile (f : FunctionDefinition) :
    Except Expression.Rejection (String × Expression.Compiled) := do
  return (f.id, ← Expression.compile f.expression)

theorem FunctionDefinition.compile_ok_iff {f : FunctionDefinition}
    {p : String × Expression.Compiled} :
    f.compile = .ok p ↔ Expression.compile f.expression = .ok p.2 ∧ p.1 = f.id := by
  unfold compile
  rw [bind_ok_iff]
  constructor
  · rintro ⟨c, hc, h⟩
    cases pure_ok_iff.mp h
    exact ⟨hc, rfl⟩
  · rintro ⟨hc, hid⟩
    exact ⟨p.2, hc, by rw [← hid]; rfl⟩

theorem Engine.ofDefinition_ok_iff {d : Definition} {e : Engine} :
    Engine.ofDefinition d = .ok e ↔ ∃ fs, d.functions.mapM FunctionDefinition.compile = .ok fs ∧
      e = ⟨d.name, fs, d.entryRules, d.exitRules⟩ := by
  show (d.functions.mapM FunctionDefinition.compile >>= _) = _ ↔ _
  rw [bind_ok_iff]
  refine exists_congr fun fs => and_congr_right fun _ => ?_
  exact pure_ok_iff.trans eq_comm

/-- **A strategy has an engine exactly when it compiles.** -/
theorem compiles_iff {d : Definition} : d.Compiles ↔ ∃ e, Engine.ofDefinition d = .ok e := by
  constructor
  · intro h
    have hall : ∀ f ∈ d.functions, ∃ p, f.compile = .ok p := by
      intro f hf
      obtain ⟨c, hc⟩ := h f hf
      exact ⟨(f.id, c), FunctionDefinition.compile_ok_iff.mpr ⟨hc, rfl⟩⟩
    obtain ⟨fs, hfs⟩ := mapM_ok_of_forall hall
    exact ⟨_, Engine.ofDefinition_ok_iff.mpr ⟨fs, hfs, rfl⟩⟩
  · rintro ⟨e, he⟩ f hf
    obtain ⟨fs, hfs, -⟩ := Engine.ofDefinition_ok_iff.mp he
    have hall := mapM_ok_iff.mp hfs
    obtain ⟨i, hi, rfl⟩ := List.getElem_of_mem hf
    have hlen := hall.length_eq
    exact ⟨_, (FunctionDefinition.compile_ok_iff.mp (hall.get hi (hlen ▸ hi))).1⟩

namespace Engine

variable {d : Definition} {e : Engine} (he : Engine.ofDefinition d = .ok e)
include he

theorem rules_eq : e.entryRules = d.entryRules ∧ e.exitRules = d.exitRules := by
  obtain ⟨fs, -, rfl⟩ := Engine.ofDefinition_ok_iff.mp he
  exact ⟨rfl, rfl⟩

theorem ids_eq : e.functions.map (·.1) = d.functions.map (·.id) := by
  obtain ⟨fs, hfs, rfl⟩ := Engine.ofDefinition_ok_iff.mp he
  rw [← List.forall₂_eq_eq_eq, List.forall₂_map_left_iff, List.forall₂_map_right_iff]
  exact ((mapM_ok_iff.mp hfs).imp fun f p h => (FunctionDefinition.compile_ok_iff.mp h).2).flip

/-- The functions of an engine are those of its strategy, compiled. -/
theorem mem_functions_iff {id : String} {c : Expression.Compiled} : (id, c) ∈ e.functions ↔
    ∃ f ∈ d.functions, f.id = id ∧ Expression.compile f.expression = .ok c := by
  obtain ⟨fs, hfs, rfl⟩ := Engine.ofDefinition_ok_iff.mp he
  have hall := mapM_ok_iff.mp hfs
  constructor
  · intro hmem
    obtain ⟨f, hf, hcompile⟩ := exists_of_forall₂_of_mem hall hmem
    obtain ⟨hc, hid⟩ := FunctionDefinition.compile_ok_iff.mp hcompile
    exact ⟨f, hf, hid.symm, hc⟩
  · rintro ⟨f, hf, rfl, hc⟩
    obtain ⟨p, hp, hcompile⟩ := exists_of_forall₂_of_mem hall.flip hf
    obtain ⟨hc', hid⟩ := FunctionDefinition.compile_ok_iff.mp hcompile
    have heq : p.2 = c := Except.ok.inj (hc'.symm.trans hc)
    rw [← hid, ← heq]
    exact hp

end Engine

instance (d : Definition) : Decidable d.Compiles :=
  decidable_of_iff (∀ f ∈ d.functions, (Expression.compile f.expression).isOk = true)
    (forall₂_congr fun _ _ => isOk_iff)

/-! ## Running -/

section

variable {d : Definition} {e : Engine} (config : Config Float) {ticks : List (Tick Float)}

theorem run_eq (he : Engine.ofDefinition d = .ok e) :
    run ticks d config =
      ((Backtest.run e.policy [] config ticks).mapError .fault).map
        fun p => ⟨d.name, p.1, p.2⟩ := by
  unfold run
  rw [he]
  show ((Backtest.run e.policy [] config ticks).mapError RunError.fault >>= _) = _
  rcases Backtest.run e.policy [] config ticks with f | p
  · rfl
  · rfl

theorem run_of_few (he : Engine.ofDefinition d = .ok e) (h : (validTicks ticks).length < 2) :
    run ticks d config = .error (.fault (.tooFewTicks ⟨(validTicks ticks).length⟩)) := by
  rw [run_eq config he, Backtest.run_of_few e.policy [] config h]
  rfl

theorem run_of_overflow (he : Engine.ofDefinition d = .ok e) (h : 2 ≤ (validTicks ticks).length)
    (hlong : SeriesBuffer.capacityBound ≤ config.historyLength) :
    run ticks d config = .error (.fault (.capacityOverflow ⟨⟩)) := by
  rw [run_eq config he, Backtest.run_of_overflow e.policy [] config h hlong]
  rfl

/-- The run of a strategy over enough ticks, with a history, is that of its engine. -/
theorem run_of_enough (he : Engine.ofDefinition d = .ok e) (h : 2 ≤ (validTicks ticks).length)
    (hfits : config.historyLength < SeriesBuffer.capacityBound) :
    run ticks d config =
      .ok ⟨d.name,
        .ofDecisions config.transactionCost
          ((State.start config []).decisionsAt e.policy (validTicks ticks)),
        ((State.start config []).after e.policy (validTicks ticks)).policyState⟩ := by
  rw [run_eq config he, Backtest.run_of_enough e.policy [] config h hfits]
  rfl

end

section

variable {d : Definition} (hd : d.Compiles)
include hd

/-- **How the run of a strategy ends** that compiles: without enough ticks, in a crash, or well. -/
theorem run_cases (config : Config Float) (ticks : List (Tick Float)) :
    ((validTicks ticks).length < 2 ∧
      run ticks d config = .error (.fault (.tooFewTicks ⟨(validTicks ticks).length⟩))) ∨
    (2 ≤ (validTicks ticks).length ∧ SeriesBuffer.capacityBound ≤ config.historyLength ∧
      run ticks d config = .error (.fault (.capacityOverflow ⟨⟩))) ∨
    (2 ≤ (validTicks ticks).length ∧ config.historyLength < SeriesBuffer.capacityBound ∧
      ∃ r, run ticks d config = .ok r) := by
  obtain ⟨e, he⟩ := compiles_iff.mp hd
  rcases Nat.lt_or_ge (validTicks ticks).length 2 with hfew | henough
  · exact .inl ⟨hfew, run_of_few config he hfew⟩
  rcases Nat.lt_or_ge config.historyLength SeriesBuffer.capacityBound with hfits | hlong
  · exact .inr (.inr ⟨henough, hfits, _, run_of_enough config he henough hfits⟩)
  · exact .inr (.inl ⟨henough, hlong, run_of_overflow config he henough hlong⟩)

/-- It has a result exactly when there are two valid ticks and a history. -/
theorem run_ok_iff {config : Config Float} {ticks : List (Tick Float)} :
    (∃ r, run ticks d config = .ok r) ↔
      2 ≤ (validTicks ticks).length ∧ config.historyLength < SeriesBuffer.capacityBound := by
  rcases run_cases hd config ticks with ⟨hfew, hrun⟩ | ⟨-, hlong, hrun⟩ | ⟨henough, hfits, hrun⟩
  · rw [hrun]
    exact ⟨nofun, fun h => absurd h.1 (Nat.not_le.mpr hfew)⟩
  · rw [hrun]
    exact ⟨nofun, fun h => absurd h.2 (Nat.not_lt.mpr hlong)⟩
  · exact iff_of_true hrun ⟨henough, hfits⟩

end

/-! ## Running side by side -/

end TickBacktest.Strategy
