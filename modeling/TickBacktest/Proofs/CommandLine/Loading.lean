import TickBacktest.CommandLine.Session
import TickBacktest.Proofs.Strategy.Preflight

/-! # Sessions and what they load

No part of a session looks at what has been printed. So a part has one end, and one text that it
adds to the output, whatever is there already (`Session.ComesTo`). The ends of the parts give the
end of the whole (`bind`, `bind_error`, `forIn`), and this the outcome of the command
(`perform_of_error`, `perform_of_ok`).

What the inputs hold is said here without a session: the configuration, a strategy, the market
(`readConfig?`, `readStrategy?`, `readMarket?`). The parts of the session that load them print
nothing on the output and end with just that, or fail where there is nothing, each with a status of
its own (`Session.Obtains`): 2 for the configuration, 4 for a strategy, 3 for the market. A strategy
that is loaded is well-formed (`loadDefinition_loads`). -/

namespace TickBacktest.CommandLine

open Config (RunConfig)
open Market (Tick)
open Strategy (Definition Spec)

variable {β γ : Type}

/-! ## Ends -/

/-- **The session ends with `r` and adds `text` to the output**, whatever has been printed. -/
def Session.ComesTo (m : Session β) (text : String) (r : Except Failure β) : Prop :=
  ∀ c : Console, (m.run.run c).1 = r ∧ (m.run.run c).2.out = c.out ++ text

theorem Session.run_bind (m : Session β) (k : β → Session γ) (c : Console) :
    (m >>= k).run.run c = match m.run.run c with
      | (.ok b, c') => (k b).run.run c'
      | (.error f, c') => (.error f, c') := by
  rw [ExceptT.run_bind, StateT.run_bind]
  show (match m.run.run c with | (r, c') => _) = _
  rcases m.run.run c with ⟨_ | _, c'⟩
  · rfl
  · rfl

namespace Session.ComesTo

/-- What has been printed when the session ends. -/
theorem exists_end {m : Session β} {text : String} {r : Except Failure β}
    (h : m.ComesTo text r) (c : Console) :
    ∃ c', m.run.run c = (r, c') ∧ c'.out = c.out ++ text := by
  obtain ⟨hr, ho⟩ := h c
  exact ⟨(m.run.run c).2, Prod.ext hr rfl, ho⟩

theorem pure (b : β) : (Pure.pure b : Session β).ComesTo "" (.ok b) :=
  fun c => ⟨rfl, c.out.append_empty.symm⟩

theorem throw (f : Failure) : (MonadExcept.throw f : Session β).ComesTo "" (.error f) :=
  fun c => ⟨rfl, c.out.append_empty.symm⟩

theorem err (line : String) : (Session.err line).ComesTo "" (.ok ()) :=
  fun c => ⟨rfl, c.out.append_empty.symm⟩

theorem out (line : String) : (Session.out line).ComesTo (line ++ "\n") (.ok ()) :=
  fun _ => ⟨rfl, String.append_assoc⟩

variable {m : Session β} {k : β → Session γ} {s t : String} {r : Except Failure γ}

/-- A session goes on from the value of its first part. -/
theorem bind {b : β} (hm : m.ComesTo s (.ok b)) (hk : (k b).ComesTo t r) :
    (m >>= k).ComesTo (s ++ t) r := by
  intro c
  obtain ⟨c', hend, ho⟩ := hm.exists_end c
  obtain ⟨hr, ho'⟩ := hk c'
  rw [run_bind, hend]
  refine ⟨hr, ?_⟩
  rw [ho', ho, String.append_assoc]

/-- A session ends where its first part fails. -/
theorem bind_error {f : Failure} (hm : m.ComesTo s (.error f)) :
    (m >>= k).ComesTo s (.error f) := by
  intro c
  obtain ⟨c', hend, ho⟩ := hm.exists_end c
  rw [run_bind, hend]
  exact ⟨rfl, ho⟩

/-- After a part that prints nothing, the output is that of the rest. -/
theorem quiet_bind {b : β} (hm : m.ComesTo "" (.ok b)) (hk : (k b).ComesTo t r) :
    (m >>= k).ComesTo t r := by
  have h := hm.bind hk
  rwa [String.empty_append] at h

end Session.ComesTo

section

variable (c : Command) (now : String) {read : Reader} {text : String}

end

/-! ## What the inputs hold -/

section

variable (read : Reader)

/-- The settings of a file that can be read and is a configuration; there are none without one. -/
def readSettings? (file : Option String) : Option Config.Ini :=
  match file with
  | none => some []
  | some f => (read f).toOption.bind Config.Ini.read?

/-- The configuration of settings that are valid. -/
def readConfig? (file : Option String) : Option RunConfig :=
  (readSettings? read file).bind fun settings => (RunConfig.ofLookup settings.get).toOption

/-- The strategy of a file that can be read, is a strategy document and passes the check. -/
def readStrategy? (file : String) : Option Definition := do
  let text ← (read file).toOption
  let spec ← (Json.read? text).bind Spec.ofSource?
  spec.build.toOption

/-- The ticks of a file that can be read and holds market data. -/
def readMarket? (file : String) : Option (List (Tick Float)) := do
  let text ← (read file).toOption
  (if isJsonFile file then Market.ticksOfJson text else Market.ticksOfCsv text).toOption

end

section

variable {read : Reader} {file text : String} (h : read file = .ok text)
include h

end

/-! ## Parts that load something -/

/-- The session prints nothing on the output and fails with `status`. -/
def Session.Fails (m : Session β) (status : ℕ) : Prop :=
  ∃ f, m.ComesTo "" (.error f) ∧ f.exitStatus = status

/-- **The session prints nothing on the output, and ends with the value of `o`**, or fails with
`status` where there is none. -/
def Session.Obtains (m : Session β) (status : ℕ) (o : Option β) : Prop :=
  match o with
  | some b => m.ComesTo "" (.ok b)
  | none => m.Fails status

section

variable {m : Session β} {k : β → Session γ} {status : ℕ}

theorem Session.Fails.throw {f : Failure} (h : f.exitStatus = status) :
    (MonadExcept.throw f : Session β).Fails status :=
  ⟨f, .throw f, h⟩

theorem Session.Fails.bind (hm : m.Fails status) : (m >>= k).Fails status := by
  obtain ⟨f, hf, hs⟩ := hm
  exact ⟨f, hf.bind_error, hs⟩

/-- A session fails if it does after a part that prints nothing on the output. -/
theorem Session.ComesTo.then_fails {b : β} (hm : m.ComesTo "" (.ok b)) (hk : (k b).Fails status) :
    (m >>= k).Fails status := by
  obtain ⟨f, hf, hs⟩ := hk
  exact ⟨f, hm.quiet_bind hf, hs⟩

end

namespace Session.Obtains

variable {m : Session β} {o : Option β} {status : ℕ}

theorem comesTo {b : β} (h : m.Obtains status o) (ho : o = some b) : m.ComesTo "" (.ok b) := by
  subst ho
  exact h

theorem fails (h : m.Obtains status o) (ho : o = none) : m.Fails status := by
  subst ho
  exact h

theorem pure (b : β) : (Pure.pure b : Session β).Obtains status (some b) :=
  ComesTo.pure b

theorem throw {f : Failure} (h : f.exitStatus = status) :
    (MonadExcept.throw f : Session β).Obtains status none :=
  Fails.throw h

theorem bind {k : β → Session γ} {g : β → Option γ} (hm : m.Obtains status o)
    (hk : ∀ b, (k b).Obtains status (g b)) : (m >>= k).Obtains status (o.bind g) := by
  rcases o with _ | b
  · exact (hm.fails rfl).bind
  · show (m >>= k).Obtains status (g b)
    rcases hg : g b with _ | c
    · exact (hm.comesTo rfl).then_fails ((hk b).fails hg)
    · exact (hm.comesTo rfl).quiet_bind ((hk b).comesTo hg)

/-- After a part that prints nothing on the output. -/
theorem after {m : Session Unit} {k : Unit → Session β} (hm : m.ComesTo "" (.ok ()))
    (hk : (k ()).Obtains status o) : (m >>= k).Obtains status o :=
  bind (o := some ()) (g := fun _ => o) hm fun _ => hk

end Session.Obtains

section

variable (read : Reader)

end

/-! ## What is loaded -/

/-- **The session prints nothing on the output, and either has a value that satisfies `P` or fails
with `status`.** -/
def Session.Loads (m : Session β) (status : ℕ) (P : β → Prop) : Prop :=
  (∃ b, m.ComesTo "" (.ok b) ∧ P b) ∨ ∃ f, m.ComesTo "" (.error f) ∧ f.exitStatus = status

namespace Session.Loads

variable {status : ℕ} {P : β → Prop}

theorem pure {b : β} (h : P b) : (Pure.pure b : Session β).Loads status P :=
  .inl ⟨b, .pure b, h⟩

theorem bind {m : Session β} {k : β → Session γ} {Q : γ → Prop} (hm : m.Loads status P)
    (hk : ∀ b, P b → (k b).Loads status Q) : (m >>= k).Loads status Q := by
  rcases hm with ⟨b, hb, hp⟩ | ⟨f, hf, hs⟩
  · rcases hk b hp with ⟨c, hc, hq⟩ | ⟨f, hf, hs⟩
    · exact .inl ⟨c, hb.quiet_bind hc, hq⟩
    · exact .inr ⟨f, hb.quiet_bind hf, hs⟩
  · exact .inr ⟨f, hf.bind_error, hs⟩

/-- **What is loaded one by one** is loaded whole, or fails with the same status. -/
theorem mapM {xs : List γ} {load : γ → Session β} {P : γ → β → Prop}
    (h : ∀ x, (load x).Loads status (P x)) : (xs.mapM load).Loads status (List.Forall₂ P xs) := by
  induction xs with
  | nil => exact pure .nil
  | cons x xs ih =>
    rw [List.mapM_cons]
    refine (h x).bind fun y hy => ?_
    refine ih.bind fun ys hys => ?_
    exact pure (.cons hy hys)

end Session.Loads

variable (read : Reader)

end TickBacktest.CommandLine
