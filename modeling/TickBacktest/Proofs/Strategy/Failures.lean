import Mathlib.Data.List.Nodup
import TickBacktest.Proofs.Strategy.Lookahead

/-! # Calls on an engine

An engine is called again and again, to decide or for the values of its functions (`Call`). What it
keeps from one call to the next are the failures counted, and no answer depends on them
(`answer_call`).

Of every id it records the faults of that id in the order in which they came: the message of the
first one and how many there were (`get?_foldl_count`). Where no id is defined twice these are the
faults of one function, one for each call in which it failed (`faultsOf_outcomesAt`). So the
diagnostics after any calls are an exact account of them (`calls_account`). -/

namespace TickBacktest.Strategy

open Backtest (Position)
open Expression (Compiled)
open Market (Values History)

/-! ## Faults in order -/

/-- The fault of an evaluation that fails. -/
def fault? : Except Fault (Option Float) → Option Fault
  | .ok _ => none
  | .error f => some f

theorem fault?_eq_some_iff {r : Except Fault (Option Float)} {f : Fault} :
    fault? r = some f ↔ r = .error f := by
  rcases r with f' | v <;> simp [fault?]

/-- The faults of an id among some outcomes, in order. -/
def faultsOf (id : String) (os : List (String × Except Fault (Option Float))) : List Fault :=
  os.filterMap fun o => if o.1 = id then fault? o.2 else none

/-- What is recorded of some faults. -/
def FailureRecord.ofFaults? : List Fault → Option FailureRecord
  | [] => none
  | f :: fs => some ⟨f.message, fs.length + 1⟩

theorem FailureRecord.ofFaults?_eq_some_iff {fs : List Fault} {r : FailureRecord} :
    ofFaults? fs = some r ↔ ∃ f rest, fs = f :: rest ∧ r = ⟨f.message, rest.length + 1⟩ := by
  rcases fs with _ | ⟨f, rest⟩
  · simp [ofFaults?]
  · simp [ofFaults?, eq_comm]

@[simp] theorem faultsOf_nil (id : String) : faultsOf id [] = [] := rfl

theorem faultsOf_cons_ne {k id : String} (h : k ≠ id) (r : Except Fault (Option Float))
    (os : List (String × Except Fault (Option Float))) :
    faultsOf id ((k, r) :: os) = faultsOf id os :=
  List.filterMap_cons_none (if_neg h)

theorem faultsOf_cons_ok (k id : String) (v : Option Float)
    (os : List (String × Except Fault (Option Float))) :
    faultsOf id ((k, .ok v) :: os) = faultsOf id os :=
  List.filterMap_cons_none (ite_self none)

theorem faultsOf_cons_self (id : String) (f : Fault)
    (os : List (String × Except Fault (Option Float))) :
    faultsOf id ((id, .error f) :: os) = f :: faultsOf id os :=
  List.filterMap_cons_some (if_pos rfl)

namespace Engine

/-- **What is recorded of an id are its faults**, one after the other. -/
theorem get?_foldl_count (id : String) (os : List (String × Except Fault (Option Float))) :
    ∀ ds : Diagnostics, ds.Ordered → (os.foldl count ds).get? id =
      (faultsOf id os).foldl (fun r f => some (Diagnostics.next f.message r)) (ds.get? id) := by
  induction os with
  | nil => intro ds _; rfl
  | cons o os ih =>
    intro ds h
    rw [List.foldl_cons, ih _ (count_spec h o).1]
    obtain ⟨k, f | v⟩ := o
    · rw [count]
      by_cases hk : k = id
      · subst hk
        rw [Diagnostics.get?_record_self h, faultsOf_cons_self, List.foldl_cons]
      · rw [Diagnostics.get?_record_ne hk, faultsOf_cons_ne hk]
    · rw [count, faultsOf_cons_ok]

theorem foldl_next (fs : List Fault) : ∀ r : FailureRecord,
    fs.foldl (fun r f => some (Diagnostics.next f.message r)) (some r) =
      some ⟨r.firstError, r.failures + fs.length⟩ := by
  induction fs with
  | nil => intro r; rfl
  | cons f fs ih =>
    intro r
    rw [List.foldl_cons, Diagnostics.next, ih, List.length_cons, Nat.add_assoc, Nat.add_comm 1]

theorem get?_foldl_count_nil (id : String) (os : List (String × Except Fault (Option Float))) :
    (os.foldl count []).get? id = FailureRecord.ofFaults? (faultsOf id os) := by
  rw [get?_foldl_count id os [] Diagnostics.ordered_nil]
  rcases faultsOf id os with _ | ⟨f, fs⟩
  · rfl
  · have h := foldl_next fs ⟨f.message, 1⟩
    rw [Nat.add_comm] at h
    exact h

end Engine

/-! ## Functions by id -/

/-- Where the keys are distinct, what stands under a key is found there. -/
theorem find?_key_eq_some_iff {β : Type} {key : β → String} {l : List β} (hl : (l.map key).Nodup)
    {k : String} {b : β} : l.find? (fun x => key x = k) = some b ↔ b ∈ l ∧ key b = k := by
  constructor
  · intro h
    exact ⟨List.mem_of_find?_eq_some h, by simpa using List.find?_some h⟩
  · rintro ⟨hb, rfl⟩
    obtain ⟨b', hfind⟩ : ∃ b', l.find? (fun x => key x = key b) = some b' := by
      rw [← Option.isSome_iff_exists, List.find?_isSome]
      exact ⟨b, hb, decide_eq_true rfl⟩
    have hkey : key b' = key b := by simpa using List.find?_some hfind
    rw [hfind, List.inj_on_of_nodup_map hl (List.mem_of_find?_eq_some hfind) hb hkey]

namespace Engine

variable (e : Engine)

/-- The function of an id. Where an id is defined twice, the later definition counts. -/
def compiled? (id : String) : Option Compiled :=
  (e.functions.reverse.find? (·.1 = id)).map (·.2)

variable {e}

theorem mem_of_compiled? {id : String} {c : Compiled} (h : e.compiled? id = some c) :
    (id, c) ∈ e.functions := by
  obtain ⟨⟨k, c'⟩, hfind, rfl⟩ := Option.map_eq_some_iff.mp h
  have hk : k = id := by simpa using List.find?_some hfind
  subst hk
  exact List.mem_reverse.mp (List.mem_of_find?_eq_some hfind)

theorem compiled?_eq_none_iff {id : String} :
    e.compiled? id = none ↔ ∀ p ∈ e.functions, p.1 ≠ id := by
  unfold compiled?
  rw [Option.map_eq_none_iff, List.find?_eq_none]
  simp only [List.mem_reverse, decide_eq_true_eq, ne_eq]

theorem compiled?_eq_some_iff (hids : (e.functions.map (·.1)).Nodup) {id : String} {c : Compiled} :
    e.compiled? id = some c ↔ (id, c) ∈ e.functions := by
  refine ⟨mem_of_compiled?, fun h => ?_⟩
  have hreverse : (e.functions.reverse.map (·.1)).Nodup := by
    rw [List.map_reverse, List.nodup_reverse]
    exact hids
  unfold compiled?
  rw [(find?_key_eq_some_iff hreverse).mpr ⟨List.mem_reverse.mpr h, rfl⟩]
  rfl

/-! ## Outcomes of many evaluations -/

/-- The outcomes of the functions at some inputs, in the order in which they are counted. -/
def outcomesAt (e : Engine) (inputs : List (Values Float × History Float)) :
    List (String × Except Fault (Option Float)) :=
  inputs.flatMap fun x => e.outcomes x.1 x.2

/-- Where the keys are distinct, one key is found where it stands and nowhere else. -/
theorem filterMap_eq_toList {β γ : Type} {k : String} {f : String × β → Option γ}
    (hf : ∀ p, p.1 ≠ k → f p = none) {l : List (String × β)} (hl : (l.map (·.1)).Nodup)
    {b : β} (h : (k, b) ∈ l) : l.filterMap f = (f (k, b)).toList := by
  obtain ⟨l₁, l₂, rfl⟩ := List.append_of_mem h
  rw [List.map_append, List.map_cons, List.nodup_middle, List.nodup_cons, List.mem_append] at hl
  push Not at hl
  have hnone : ∀ l' : List (String × β), k ∉ l'.map (·.1) → l'.filterMap f = [] := by
    intro l' hk
    refine List.filterMap_eq_nil_iff.mpr fun p hp => hf p ?_
    rintro rfl
    exact hk (List.mem_map_of_mem hp)
  rw [List.filterMap_append, List.filterMap_cons, hnone l₁ hl.1.1, hnone l₂ hl.1.2]
  rcases f (k, b) with _ | c <;> rfl

/-- In one evaluation of the functions an id that is not defined twice has one fault at most. -/
theorem faultsOf_outcomes (hids : (e.functions.map (·.1)).Nodup) (id : String)
    (values : Values Float) (history : History Float) :
    faultsOf id (e.outcomes values history) =
      ((e.compiled? id).bind fun c => fault? (c.evaluate values history)).toList := by
  unfold faultsOf outcomes
  rw [List.filterMap_map]
  rcases hc : e.compiled? id with _ | c
  · refine List.filterMap_eq_nil_iff.mpr fun p hp => ?_
    exact if_neg (compiled?_eq_none_iff.mp hc p hp)
  · refine (filterMap_eq_toList (fun p hp => if_neg hp) hids (mem_of_compiled? hc)).trans ?_
    exact congrArg Option.toList (if_pos rfl)

/-- **The faults of an id that is not defined twice** are those of its function. -/
theorem faultsOf_outcomesAt (hids : (e.functions.map (·.1)).Nodup) (id : String)
    (inputs : List (Values Float × History Float)) :
    faultsOf id (e.outcomesAt inputs) =
      inputs.filterMap fun x => (e.compiled? id).bind fun c => fault? (c.evaluate x.1 x.2) := by
  rw [List.filterMap_eq_flatMap_toList]
  unfold faultsOf outcomesAt
  rw [List.filterMap_flatMap]
  exact congrArg (inputs.flatMap ·) (funext fun x => faultsOf_outcomes hids id x.1 x.2)

/-- **The record of an id that is not defined twice** after some evaluations of the functions. -/
theorem get?_outcomesAt (hids : (e.functions.map (·.1)).Nodup) (id : String)
    (inputs : List (Values Float × History Float)) :
    ((e.outcomesAt inputs).foldl count []).get? id = FailureRecord.ofFaults?
      (inputs.filterMap fun x => (e.compiled? id).bind fun c => fault? (c.evaluate x.1 x.2)) := by
  rw [get?_foldl_count_nil, faultsOf_outcomesAt hids]

end Engine

/-! ## Calls -/

/-- A call on an engine: to decide, or for the values of its functions. -/
inductive Call where
  | decision (position : Position) (values : Values Float) (history : History Float)
  | evaluation (values : Values Float) (history : History Float)

/-- What a call returns. -/
inductive Answer where
  | target (target : Option Int)
  | values (values : FunctionValues)

namespace Call

/-- What the functions are evaluated on. -/
def input : Call → Values Float × History Float
  | decision _ values history => (values, history)
  | evaluation values history => (values, history)

/-- What becomes of a function at a call. -/
def outcome (c : Compiled) (call : Call) : Except Fault (Option Float) :=
  c.evaluate call.input.1 call.input.2

/-- The evaluation of a function fails at a call. -/
def Fails (c : Compiled) (call : Call) : Prop := ∃ f, call.outcome c = .error f

instance (c : Compiled) (call : Call) : Decidable (call.Fails c) :=
  match h : call.outcome c with
  | .error f => isTrue ⟨f, h⟩
  | .ok _ => isFalse fun ⟨_, hf⟩ => nomatch h.symm.trans hf

/-- The fault of a function at a call. -/
def faultOf? (c : Compiled) (call : Call) : Option Fault := fault? (call.outcome c)

theorem faultOf?_eq_some_iff {c : Compiled} {call : Call} {f : Fault} :
    call.faultOf? c = some f ↔ call.outcome c = .error f :=
  fault?_eq_some_iff

theorem isSome_faultOf?_iff {c : Compiled} {call : Call} :
    (call.faultOf? c).isSome = true ↔ call.Fails c := by
  simp only [Option.isSome_iff_exists, faultOf?_eq_some_iff, Fails]

end Call

namespace Engine

/-- One call, with the failures counted so far. -/
def call (e : Engine) (call : Call) (ds : Diagnostics) : Answer × Diagnostics :=
  match call with
  | .decision position values history =>
    let (target, ds) := e.decide position values history ds
    (.target target, ds)
  | .evaluation values history =>
    let (values, ds) := e.evaluate values history ds
    (.values values, ds)

/-- Calls one after the other. -/
def calls (e : Engine) : List Call → Diagnostics → List Answer × Diagnostics
  | [], ds => ([], ds)
  | call :: rest, ds =>
    let (answer, ds) := e.call call ds
    let (answers, ds) := e.calls rest ds
    (answer :: answers, ds)

variable (e : Engine)

/-- **An answer does not depend on the failures counted so far.** -/
theorem answer_call (call : Call) (ds : Diagnostics) : (e.call call ds).1 = (e.call call []).1 := by
  cases call <;> rfl

theorem diagnostics_call (call : Call) (ds : Diagnostics) :
    (e.call call ds).2 = (e.outcomes call.input.1 call.input.2).foldl count ds := by
  cases call <;> rfl

theorem answers_calls (cs : List Call) : ∀ ds : Diagnostics,
    (e.calls cs ds).1 = cs.map fun call => (e.call call []).1 := by
  induction cs with
  | nil => intro ds; rfl
  | cons call cs ih =>
    intro ds
    rw [calls, List.map_cons, ← ih (e.call call ds).2, ← answer_call e call ds]

theorem diagnostics_calls (cs : List Call) : ∀ ds : Diagnostics,
    (e.calls cs ds).2 = (e.outcomesAt (cs.map Call.input)).foldl count ds := by
  induction cs with
  | nil => intro ds; rfl
  | cons call cs ih =>
    intro ds
    have hcons : e.outcomesAt ((call :: cs).map Call.input) =
        e.outcomes call.input.1 call.input.2 ++ e.outcomesAt (cs.map Call.input) := rfl
    rw [calls, hcons, List.foldl_append, ← diagnostics_call]
    exact ih _

end Engine

/-! ## The account -/

/-- **The diagnostics are an exact account of the calls.** An id is in them if its function failed
at one of the calls; then they tell at how many, and with which message at the first. -/
structure Diagnostics.Accounts (e : Engine) (cs : List Call) (ds : Diagnostics) : Prop where
  ordered : ds.Ordered
  recorded_iff : ∀ id, (∃ r, ds.get? id = some r) ↔
    ∃ c, (id, c) ∈ e.functions ∧ ∃ call ∈ cs, call.Fails c
  failures : ∀ id c r, (id, c) ∈ e.functions → ds.get? id = some r →
    r.failures = cs.countP (·.Fails c)
  firstError : ∀ id c r, (id, c) ∈ e.functions → ds.get? id = some r →
    ∃ call f, cs.find? (·.Fails c) = some call ∧ call.outcome c = .error f ∧
      r.firstError = f.message

/-- The faults of a function at some calls, in order. -/
def faultsAt (c : Compiled) (cs : List Call) : List Fault := cs.filterMap (Call.faultOf? c)

theorem length_faultsAt (c : Compiled) (cs : List Call) :
    (faultsAt c cs).length = cs.countP (·.Fails c) := by
  unfold faultsAt
  rw [List.length_filterMap_eq_countP]
  exact List.countP_congr fun call _ => by rw [Call.isSome_faultOf?_iff, decide_eq_true_iff]

/-- The first fault is that of the first call at which the function fails. -/
theorem exists_first_of_faultsAt {c : Compiled} {cs : List Call} {f : Fault} {fs : List Fault}
    (h : faultsAt c cs = f :: fs) :
    ∃ call, cs.find? (·.Fails c) = some call ∧ call.outcome c = .error f := by
  induction cs with
  | nil => cases h
  | cons call cs ih =>
    unfold faultsAt at h
    by_cases hfails : call.Fails c
    · obtain ⟨f', hf'⟩ := hfails
      rw [List.filterMap_cons_some (Call.faultOf?_eq_some_iff.mpr hf')] at h
      cases h
      exact ⟨call, List.find?_cons_of_pos (decide_eq_true ⟨f, hf'⟩), hf'⟩
    · have hnone : call.faultOf? c = none := by
        rw [← Option.not_isSome_iff_eq_none, Call.isSome_faultOf?_iff]
        exact hfails
      rw [List.filterMap_cons_none hnone] at h
      rw [List.find?_cons_of_neg (by simpa using hfails)]
      exact ih h

section

variable {e : Engine} (hids : (e.functions.map (·.1)).Nodup)
include hids

/-- What is recorded of an id after some calls are the faults of its function. -/
theorem get?_calls (id : String) (cs : List Call) : (e.calls cs []).2.get? id =
    FailureRecord.ofFaults? (cs.filterMap fun call => (e.compiled? id).bind call.faultOf?) := by
  rw [Engine.diagnostics_calls, Engine.get?_outcomesAt hids, List.filterMap_map]
  rfl

theorem get?_calls_of_mem {id : String} {c : Compiled} (h : (id, c) ∈ e.functions)
    (cs : List Call) :
    (e.calls cs []).2.get? id = FailureRecord.ofFaults? (faultsAt c cs) := by
  rw [get?_calls hids, (Engine.compiled?_eq_some_iff hids).mpr h]
  rfl

theorem get?_calls_of_none {id : String} (h : e.compiled? id = none) (cs : List Call) :
    (e.calls cs []).2.get? id = none := by
  have hnil : (cs.filterMap fun call => (e.compiled? id).bind call.faultOf?) = [] :=
    List.filterMap_eq_nil_iff.mpr fun _ _ => by rw [h]; rfl
  rw [get?_calls hids, hnil]
  rfl

theorem accounts_calls (cs : List Call) : Diagnostics.Accounts e cs (e.calls cs []).2 where
  ordered := by
    rw [Engine.diagnostics_calls]
    exact (Engine.foldl_count_spec _ [] Diagnostics.ordered_nil).1
  recorded_iff id := by
    constructor
    · rintro ⟨r, hr⟩
      rcases hc : e.compiled? id with _ | c
      · rw [get?_calls_of_none hids hc] at hr
        cases hr
      · have hmem := Engine.mem_of_compiled? hc
        rw [get?_calls_of_mem hids hmem] at hr
        obtain ⟨f, rest, hfaults, -⟩ := FailureRecord.ofFaults?_eq_some_iff.mp hr
        obtain ⟨call, hfirst, hf⟩ := exists_first_of_faultsAt hfaults
        exact ⟨c, hmem, call, List.mem_of_find?_eq_some hfirst, f, hf⟩
    · rintro ⟨c, hmem, call, hcall, f, hf⟩
      have hfault : f ∈ faultsAt c cs :=
        List.mem_filterMap.mpr ⟨call, hcall, Call.faultOf?_eq_some_iff.mpr hf⟩
      obtain ⟨f', rest, hfaults⟩ := List.exists_cons_of_ne_nil (List.ne_nil_of_mem hfault)
      rw [get?_calls_of_mem hids hmem, hfaults]
      exact ⟨_, rfl⟩
  failures id c r h hr := by
    rw [get?_calls_of_mem hids h] at hr
    obtain ⟨f, rest, hfaults, rfl⟩ := FailureRecord.ofFaults?_eq_some_iff.mp hr
    rw [← length_faultsAt, hfaults, List.length_cons]
  firstError id c r h hr := by
    rw [get?_calls_of_mem hids h] at hr
    obtain ⟨f, rest, hfaults, rfl⟩ := FailureRecord.ofFaults?_eq_some_iff.mp hr
    obtain ⟨call, hfirst, hf⟩ := exists_first_of_faultsAt hfaults
    exact ⟨call, f, hfirst, hf, rfl⟩

/-- **Every answer is that of a fresh engine, and the diagnostics account for the calls.** -/
theorem calls_account (cs : List Call) :
    (e.calls cs []).1 = cs.map (fun call => (e.call call []).1) ∧
      Diagnostics.Accounts e cs (e.calls cs []).2 :=
  ⟨e.answers_calls cs [], accounts_calls hids cs⟩

end

/-- Three calls, of which the second one has enough of a past for an average over three ticks. -/
def threeCalls : List Call :=
  let values : Values Float := ⟨100, 1, 99.5, 100.5, 0, 0⟩
  [.decision .flat values fun _ => some [], .evaluation values fun _ => some [101, 99, 100],
    .decision .long values fun _ => some [99, 100]]

/-- The average fails twice, first for want of any past. -/
theorem calls_account_belowAverage : ∃ e, Engine.ofDefinition belowAverage = .ok e ∧
    (e.functions.map (·.1)).Nodup ∧
    ((e.calls threeCalls []).1 = threeCalls.map (fun call => (e.call call []).1) ∧
      Diagnostics.Accounts e threeCalls (e.calls threeCalls []).2) ∧
    (e.calls threeCalls []).2.get? "ratio" =
      some ⟨"insufficient data: need 3 points, but only 0 available", 2⟩ := by
  obtain ⟨e, he, hids, hratio⟩ : ∃ e, Engine.ofDefinition belowAverage = .ok e ∧
      (e.functions.map (·.1)).Nodup ∧ (e.calls threeCalls []).2.get? "ratio" =
        some ⟨"insufficient data: need 3 points, but only 0 available", 2⟩ := by
    decide +kernel
  exact ⟨e, he, hids, calls_account hids threeCalls, hratio⟩

end TickBacktest.Strategy
