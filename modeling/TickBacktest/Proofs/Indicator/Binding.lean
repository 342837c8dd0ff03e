import TickBacktest.Indicator.Call
import TickBacktest.Proofs.Indicator.Assignment
import TickBacktest.Proofs.Outcome

/-! # Binding

A call binds exactly when its arguments fit the parameters, and a parameter then has the argument
assigned to it (`bind_ok_iff_fits`, `number_of_bind`). What is bound to the window is the number
given for it, or the window that the function has by default (`number_window_of_scalar`,
`number_window_of_none`).

Only a function of a number looks at the current value of a variable that is an argument, so calls
that differ in current values alone may have the same value (`call_seenBy`). -/

namespace TickBacktest.Indicator

open Market (Variable)

/-! ## Slots -/

/-- The slots of parameters when the arguments in `given` go to the parameters of these names. -/
def slotsOf (ps : List Parameter) (given : List (String × Argument)) :
    List (Parameter × Option Argument) :=
  ps.map fun p => (p, given.lookup p.name)

theorem zip_positional {ps : List Parameter} (hps : (ps.map (·.name)).Nodup) :
    ∀ {args : List Argument}, args.length ≤ ps.length →
      ps.zip (args.map some ++ List.replicate (ps.length - args.length) none) =
        slotsOf ps ((ps.map (·.name)).zip args) := by
  induction ps with
  | nil => intro args _; rfl
  | cons p ps ih =>
    intro args hlen
    obtain ⟨hp, hps⟩ := List.nodup_cons.mp hps
    rcases args with _ | ⟨a, args⟩
    · have htail := @ih hps [] (Nat.zero_le _)
      rw [List.zip_nil_right] at htail ⊢
      rw [slotsOf, List.map_cons, ← slotsOf, ← htail]
      rfl
    · have htail := @ih hps args (Nat.le_of_succ_le_succ hlen)
      -- the names are distinct, so no later parameter finds the argument of the first
      have hskip : ∀ q ∈ ps, (((p.name, a) :: (ps.map (·.name)).zip args).lookup q.name) =
          ((ps.map (·.name)).zip args).lookup q.name := by
        intro q hq
        have hne : q.name ≠ p.name := fun h => hp (List.mem_map.mpr ⟨q, hq, h⟩)
        rw [List.lookup_cons, beq_eq_false_iff_ne.mpr hne]
      have hslots : slotsOf (p :: ps) ((p.name, a) :: (ps.map (·.name)).zip args) =
          (p, some a) :: slotsOf ps ((ps.map (·.name)).zip args) := by
        rw [slotsOf, List.map_cons, List.lookup_cons_self]
        exact congrArg _ (List.map_congr_left fun q hq => by rw [hskip q hq])
      rw [List.map_cons, List.map_cons, List.zip_cons_cons, hslots, ← htail, List.length_cons,
        List.length_cons, Nat.add_sub_add_right, List.cons_append, List.zip_cons_cons]

/-! ## Keywords -/

section

variable {ps : List Parameter} (f : Function) (given : List (String × Argument))

theorem find?_slotsOf (k : String) : (slotsOf ps given).find? (·.1.name = k) =
    (ps.find? (·.name = k)).map fun p => (p, given.lookup k) := by
  rw [slotsOf, List.find?_map]
  show (ps.find? (·.name = k)).map _ = _
  rcases h : ps.find? (·.name = k) with _ | p
  · rw [h]
    rfl
  · have hp : p.name = k := by simpa using List.find?_some h
    rw [h, Option.map_some, Option.map_some, hp]

/-- To give an argument to the parameter of a name is to add it to those that are given. -/
theorem map_slotsOf {given : List (String × Argument)} {k : String} {a : Argument}
    (hg : given.lookup k = none)
    {give : Parameter × Option Argument → Parameter × Option Argument}
    (hgive : ∀ p s, give (p, s) = if p.name = k then (p, some a) else (p, s)) :
    (slotsOf ps given).map give = slotsOf ps (given ++ [(k, a)]) := by
  rw [slotsOf, slotsOf, List.map_map]
  refine List.map_congr_left fun p _ => ?_
  rw [Function.comp_apply, hgive]
  by_cases hp : p.name = k
  · simp [hp, hg, List.lookup_append]
  · simp [hp, lookup_append_ne]

/-- A keyword argument goes to the parameter of its name, if there is one and it has none yet. -/
theorem giveKeyword_ok_iff {k : String} {a : Argument}
    {slots : List (Parameter × Option Argument)} :
    giveKeyword f (slotsOf ps given) k a = .ok slots ↔
      (k ∈ ps.map (·.name) ∧ given.lookup k = none) ∧ slots = slotsOf ps (given ++ [(k, a)]) := by
  unfold giveKeyword
  rw [find?_slotsOf]
  rcases h : ps.find? (·.name = k) with _ | p
  · rw [h]
    have hk : k ∉ ps.map (·.name) := by
      intro hk
      obtain ⟨p, hp, rfl⟩ := List.mem_map.mp hk
      simpa using List.find?_eq_none.mp h p hp
    exact ⟨fun h => (by cases h), fun h => absurd h.1.1 hk⟩
  · rw [h, Option.map_some]
    have hk : k ∈ ps.map (·.name) := by
      have hp : p.name = k := by simpa using List.find?_some h
      exact hp ▸ List.mem_map_of_mem (List.mem_of_find?_eq_some h)
    rcases hg : given.lookup k with _ | b
    · dsimp only
      rw [map_slotsOf hg fun _ _ => rfl, and_iff_right ⟨hk, rfl⟩, Except.ok.injEq, eq_comm]
    · exact ⟨fun h => (by cases h), fun h => (by cases h.1.2)⟩

/-- Keyword arguments go to the parameters of their names, if these are distinct and free. -/
theorem foldlM_giveKeyword_ok_iff (ks : List (String × Argument)) :
    ∀ (given : List (String × Argument)) {slots : List (Parameter × Option Argument)},
      ks.foldlM (fun slots (k, a) => giveKeyword f slots k a) (slotsOf ps given) = .ok slots ↔
        ((∀ k ∈ ks.map (·.1), k ∈ ps.map (·.name) ∧ given.lookup k = none) ∧
          (ks.map (·.1)).Nodup) ∧ slots = slotsOf ps (given ++ ks) := by
  -- a keyword that has been given makes its parameter taken for those that follow
  induction ks with
  | nil =>
    intro given slots
    rw [List.foldlM_nil, pure_ok_iff, List.append_nil, eq_comm]
    simp
  | cons x ks ih =>
    obtain ⟨k, a⟩ := x
    intro given slots
    have hlookup : ∀ j, (given ++ [(k, a)]).lookup j = none ↔ given.lookup j = none ∧ j ≠ k := by
      intro j
      by_cases hj : j = k
      · simp [List.lookup_append, hj]
      · rw [lookup_append_ne hj, and_iff_left hj]
    rw [List.foldlM_cons, bind_ok_iff]
    constructor
    · rintro ⟨slots', h, h'⟩
      obtain ⟨hk, rfl⟩ := (giveKeyword_ok_iff f given).mp h
      obtain ⟨⟨hks, hnodup⟩, rfl⟩ := (ih _).mp h'
      rw [List.append_assoc, List.singleton_append]
      refine ⟨⟨?_, ?_⟩, rfl⟩
      · intro j hj
        rcases List.mem_cons.mp hj with rfl | hj
        · exact hk
        · exact ⟨(hks j hj).1, ((hlookup j).mp (hks j hj).2).1⟩
      · exact List.nodup_cons.mpr ⟨fun hj => ((hlookup k).mp (hks k hj).2).2 rfl, hnodup⟩
    · rintro ⟨⟨hks, hnodup⟩, rfl⟩
      obtain ⟨hk, hnodup⟩ := List.nodup_cons.mp hnodup
      have hfirst := (giveKeyword_ok_iff f given (a := a)).mpr ⟨hks k List.mem_cons_self, rfl⟩
      refine ⟨_, hfirst, (ih _).mpr ⟨⟨?_, hnodup⟩, ?_⟩⟩
      · intro j hj
        have hjk := hks j (List.mem_cons_of_mem _ hj)
        exact ⟨hjk.1, (hlookup j).mpr ⟨hjk.2, fun h => hk (h ▸ hj)⟩⟩
      · rw [List.append_assoc, List.singleton_append]

end

/-- No parameter without a default is left without an argument. -/
theorem find?_missing_eq_none_iff {ps : List Parameter} (hps : (ps.map (·.name)).Nodup)
    {args : List Argument} {keywords : List (String × Argument)} :
    (slotsOf ps ((ps.map (·.name)).zip args ++ keywords)).find?
        (fun (p, given) => given.isNone && p.default.isNone) = none ↔
      ∀ p ∈ ps.drop args.length, p.default = none → p.name ∈ keywords.map (·.1) := by
  have hslot : ∀ p : Parameter,
      ((ps.map (·.name)).zip args ++ keywords).lookup p.name = none ↔
        p.name ∉ (ps.map (·.name)).take args.length ∧ p.name ∉ keywords.map (·.1) := by
    intro p
    rw [List.lookup_append, Option.or_eq_none_iff, lookup_zip_eq_none_iff, lookup_eq_none_iff]
  rw [List.find?_eq_none, slotsOf, List.forall_mem_map]
  simp only [Bool.and_eq_true, Option.isNone_iff_eq_none, hslot]
  constructor
  · intro h p hp hdefault
    have hlate : p.name ∉ (ps.map (·.name)).take args.length := by
      refine ((mem_drop_names_iff hps).mpr ?_).2
      rw [← List.map_drop]
      exact List.mem_map_of_mem hp
    by_contra hk
    exact h p (List.mem_of_mem_drop hp) ⟨⟨hlate, hk⟩, hdefault⟩
  · rintro h p hp ⟨⟨hlate, hk⟩, hdefault⟩
    exact hk (h p (mem_drop_of_not_mem_take hp hlate) hdefault)

/-- **When a call binds**, and what it binds. -/
theorem bind_ok_iff_fits {f : Function} {args : List Argument}
    {keywords : List (String × Argument)} {b : Bound} : bind f args keywords = .ok b ↔
      f.Fits args.length (keywords.map (·.1)) ∧
        b = ⟨f, slotsOf (f.parameters args.length) (f.assigned args keywords)⟩ := by
  have hnodup := nodup_parameters f args.length
  have hfree : (∀ k ∈ keywords.map (·.1), k ∈ (f.parameters args.length).map (·.name) ∧
      (((f.parameters args.length).map (·.name)).zip args).lookup k = none) ↔
        ∀ k ∈ keywords.map (·.1),
          k ∈ ((f.parameters args.length).drop args.length).map (·.name) := by
    refine forall₂_congr fun k _ => ?_
    rw [lookup_zip_eq_none_iff, mem_drop_names_iff hnodup, List.map_drop]
  unfold bind
  dsimp only
  by_cases hlen : (f.parameters args.length).length < args.length
  · rw [if_pos hlen]
    exact ⟨fun h => (by cases h), fun h => absurd h.1.le (Nat.not_le.mpr hlen)⟩
  · rw [if_neg hlen, zip_positional hnodup (Nat.not_lt.mp hlen), bind_ok_iff]
    constructor
    · rintro ⟨slots, hslots, hb⟩
      obtain ⟨⟨hks, hdistinct⟩, rfl⟩ := (foldlM_giveKeyword_ok_iff f _ _).mp hslots
      split at hb
      · cases hb
      · next hmissing =>
        cases hb
        exact ⟨⟨Nat.not_lt.mp hlen, hfree.mp hks, hdistinct,
          (find?_missing_eq_none_iff hnodup).mp hmissing⟩, rfl⟩
    · rintro ⟨⟨hle, hks, hdistinct, hcomplete⟩, rfl⟩
      refine ⟨_, (foldlM_giveKeyword_ok_iff f _ _).mpr ⟨⟨hfree.mpr hks, hdistinct⟩, rfl⟩, ?_⟩
      rw [(find?_missing_eq_none_iff hnodup).mpr hcomplete]
      rfl

/-! ## What is bound -/

/-- The number that a parameter has from its argument, or by default. -/
def numberGiven (f : Function) (p : Parameter) : Option Argument → Except Misuse (Option Float)
  | none => .ok p.default
  | some (.scalar value) => .ok value
  | some (.series v current) =>
    if f.isScalar then .ok (some current) else .error (.numberExpected f p.name v)

section

variable {f : Function} {args : List Argument} {keywords : List (String × Argument)} {b : Bound}

theorem function_of_bind (hb : bind f args keywords = .ok b) : b.function = f := by
  obtain ⟨-, rfl⟩ := bind_ok_iff_fits.mp hb
  rfl

theorem find?_of_nodup {ps : List Parameter} (hps : (ps.map (·.name)).Nodup) {p : Parameter}
    (hp : p ∈ ps) : ps.find? (·.name = p.name) = some p := by
  rcases h : ps.find? (·.name = p.name) with _ | q
  · simpa using List.find?_eq_none.mp h p hp
  · have hq : q.name = p.name := by simpa using List.find?_some h
    rw [h, List.inj_on_of_nodup_map hps (List.mem_of_find?_eq_some h) hp hq]

/-- **The number of a parameter** is that of the argument it was given. -/
theorem number_of_bind (hb : bind f args keywords = .ok b) {p : Parameter}
    (hp : p ∈ f.parameters args.length) :
    b.number p.name = numberGiven f p (f.argument? args keywords p.name) := by
  obtain ⟨-, rfl⟩ := bind_ok_iff_fits.mp hb
  unfold Bound.number
  dsimp only
  rw [find?_slotsOf, find?_of_nodup (nodup_parameters f _) hp, Option.map_some]
  show _ = numberGiven f p ((f.assigned args keywords).lookup p.name)
  rcases (f.assigned args keywords).lookup p.name with _ | _ | _ <;> rfl

/-- A windowed function has a parameter for its window, with the window that it has by default. -/
theorem window_parameter (hf : f.isWindowed) (n : ℕ) : ∃ p ∈ f.parameters n,
    p.name = "window" ∧ ∀ x, p.default = some x → ∃ w, window? x = some w ∧
      f.defaultWindow = some w := by
  have h14 : window? 14 = some 14 := by decide +kernel
  have h20 : window? 20 = some 20 := by decide +kernel
  cases f
  case abs | sqrt | exp | log => cases hf
  -- where the window stands among the parameters of the range depends on how many are given
  case atr =>
    refine ⟨Function.optionalParameter "window" 14, ?_, rfl, fun x hx => ⟨14, ?_, rfl⟩⟩
    · unfold Function.parameters
      split_ifs <;> simp
    · cases hx
      exact h14
  case rsi =>
    exact ⟨_, .tail _ (.head _), rfl, fun x hx => ⟨14, by cases hx; exact h14, rfl⟩⟩
  case bbwidth =>
    exact ⟨_, .tail _ (.head _), rfl, fun x hx => ⟨20, by cases hx; exact h20, rfl⟩⟩
  all_goals exact ⟨_, .tail _ (.head _), rfl, fun x hx => (by cases hx)⟩

/-- A window that is given as a number is bound as it is. -/
theorem number_window_of_scalar (hb : bind f args keywords = .ok b) (hf : f.isWindowed)
    {x : Option Float} (h : f.argument? args keywords "window" = some (.scalar x)) :
    b.number "window" = .ok x := by
  obtain ⟨p, hp, hname, -⟩ := window_parameter hf args.length
  rw [← hname, number_of_bind hb hp, hname, h]
  rfl

/-- A window that is left out is the one that the function has by default. -/
theorem number_window_of_none (hb : bind f args keywords = .ok b) (hf : f.isWindowed)
    (h : f.argument? args keywords "window" = none) :
    ∃ x w, b.number "window" = .ok (some x) ∧ window? x = some w ∧ f.defaultWindow = some w := by
  obtain ⟨p, hp, hname, hdefault⟩ := window_parameter hf args.length
  obtain ⟨hfits, -⟩ := bind_ok_iff_fits.mp hb
  have hsome := default_ne_none hfits hp (hname ▸ h)
  obtain ⟨x, hx⟩ := Option.ne_none_iff_exists'.mp hsome
  obtain ⟨w, hw, hd⟩ := hdefault x hx
  refine ⟨x, w, ?_, hw, hd⟩
  rw [← hname, number_of_bind hb hp, hname, h]
  exact congrArg Except.ok hx

/-- The series of a call is that of the variable given first. -/
theorem variableNamed_of_head (hb : bind f args keywords = .ok b) {v : Variable} {x : Float}
    (h : args.head? = some (.series v x)) : b.variableNamed = .ok v := by
  obtain ⟨hfits, rfl⟩ := bind_ok_iff_fits.mp hb
  obtain ⟨args, rfl⟩ := List.head?_eq_some_iff.mp h
  have hle := hfits.le
  rcases hps : f.parameters (Argument.series v x :: args).length with _ | ⟨p, ps⟩
  · rw [hps] at hle
    exact absurd hle (by simp)
  · unfold Bound.variableNamed slotsOf Function.assigned
    rw [hps, List.map_cons, List.map_cons, List.zip_cons_cons, List.cons_append,
      List.lookup_cons_self]

/-- The series of a call is that of a variable among its arguments. -/
theorem mem_of_variableNamed (hb : bind f args keywords = .ok b) {v : Variable}
    (h : b.variableNamed = .ok v) :
    ∃ x, .series v x ∈ args ∨ ∃ k, (k, Argument.series v x) ∈ keywords := by
  obtain ⟨-, rfl⟩ := bind_ok_iff_fits.mp hb
  unfold Bound.variableNamed at h
  split at h
  · next p u x ps heq =>
    cases h
    have hmem : (p, some (Argument.series v x)) ∈
        slotsOf (f.parameters args.length) (f.assigned args keywords) := by
      rw [show slotsOf (f.parameters args.length) (f.assigned args keywords) = _ from heq]
      exact List.mem_cons_self
    obtain ⟨q, -, hq⟩ := List.mem_map.mp hmem
    rcases List.mem_append.mp (mem_of_lookup (Prod.mk.inj hq).2) with hzip | hk
    · exact ⟨x, .inl (List.of_mem_zip hzip).2⟩
    · exact ⟨x, .inr ⟨_, hk⟩⟩
  · cases h
  · cases h

end

/-! ## Arguments that are replaced -/

/-- What a function sees of an argument: only a function of a number looks at the current value of
a variable. -/
def Argument.seenBy (f : Function) : Argument → Argument
  | .series v current => .series v (if f.isScalar then current else 0)
  | .scalar x => .scalar x

/-- Replaces the argument in a slot. -/
def replace (g : Argument → Argument) (s : Parameter × Option Argument) :
    Parameter × Option Argument := (s.1, s.2.map g)

/-- A binding whose arguments are replaced. -/
def Bound.map (g : Argument → Argument) (b : Bound) : Bound :=
  ⟨b.function, b.slots.map (replace g)⟩

theorem giveKeyword_map (g : Argument → Argument) (f : Function)
    (slots : List (Parameter × Option Argument)) (k : String) (a : Argument) :
    giveKeyword f (slots.map (replace g)) k (g a) =
      (giveKeyword f slots k a).map (List.map (replace g)) := by
  have hfind : (slots.map (replace g)).find? (·.1.name = k) =
      (slots.find? (·.1.name = k)).map (replace g) := List.find?_map ..
  unfold giveKeyword
  rw [hfind]
  rcases h : slots.find? (·.1.name = k) with _ | ⟨p, _ | b⟩
  · rw [h]
    rfl
  · rw [h]
    show Except.ok _ = Except.ok _
    rw [List.map_map, List.map_map]
    congr 1
    refine List.map_congr_left fun s _ => ?_
    by_cases hs : s.1.name = k
    · simp [replace, hs]
    · simp [replace, hs]
  · rw [h]
    rfl

theorem foldlM_giveKeyword_map (g : Argument → Argument) (f : Function)
    (keywords : List (String × Argument)) : ∀ slots : List (Parameter × Option Argument),
    (keywords.map fun k => (k.1, g k.2)).foldlM (fun slots (k, a) => giveKeyword f slots k a)
        (slots.map (replace g)) =
      (keywords.foldlM (fun slots (k, a) => giveKeyword f slots k a) slots).map
        (List.map (replace g)) := by
  induction keywords with
  | nil => intro slots; rfl
  | cons x keywords ih =>
    obtain ⟨k, a⟩ := x
    intro slots
    rw [List.map_cons, List.foldlM_cons, List.foldlM_cons]
    dsimp only
    rw [giveKeyword_map]
    rcases giveKeyword f slots k a with e | slots'
    · rfl
    · exact ih slots'

/-- **Binding does not look at the arguments.** -/
theorem bind_map (g : Argument → Argument) (f : Function) (args : List Argument)
    (keywords : List (String × Argument)) :
    bind f (args.map g) (keywords.map fun k => (k.1, g k.2)) =
      (bind f args keywords).map (Bound.map g) := by
  have hslots : (f.parameters args.length).zip ((args.map g).map some ++
        List.replicate ((f.parameters args.length).length - args.length) none) =
      ((f.parameters args.length).zip (args.map some ++
        List.replicate ((f.parameters args.length).length - args.length) none)).map
        (replace g) := by
    show _ = List.map (Prod.map id (Option.map g)) _
    rw [← List.zip_map_right, List.map_append, List.map_replicate, List.map_map, List.map_map]
    rfl
  have hmissing : ∀ slots : List (Parameter × Option Argument), (slots.map (replace g)).find?
        (fun (p, given) => given.isNone && p.default.isNone) =
      (slots.find? fun (p, given) => given.isNone && p.default.isNone).map (replace g) := by
    intro slots
    rw [List.find?_map]
    congr 2
    funext s
    simp [replace]
  unfold bind
  dsimp only
  rw [List.length_map]
  by_cases hlen : (f.parameters args.length).length < args.length
  · rw [if_pos hlen, if_pos hlen]
    rfl
  · rw [if_neg hlen, if_neg hlen, hslots, foldlM_giveKeyword_map]
    generalize keywords.foldlM (fun slots (k, a) => giveKeyword f slots k a) _ = r
    rcases r with e | slots
    · rfl
    · rw [map_ok, ok_bind, ok_bind, hmissing]
      generalize slots.find? (fun (p, given) => given.isNone && p.default.isNone) = s
      rcases s with _ | s
      · rfl
      · rfl

theorem number_map (b : Bound) (k : String) :
    (b.map (·.seenBy b.function)).number k = b.number k := by
  have hfind : (b.slots.map (replace (·.seenBy b.function))).find? (·.1.name = k) =
      (b.slots.find? (·.1.name = k)).map (replace (·.seenBy b.function)) := List.find?_map ..
  unfold Bound.number Bound.map
  dsimp only
  rw [hfind]
  rcases h : b.slots.find? (·.1.name = k) with _ | ⟨p, _ | v | x⟩
  · rw [h]; rfl
  · rw [h]; rfl
  · rw [h]
    by_cases hs : b.function.isScalar
    · simp [replace, Argument.seenBy, hs]
    · simp [replace, Argument.seenBy, hs]
  · rw [h]; rfl

theorem variableNamed_map (b : Bound) :
    (b.map (·.seenBy b.function)).variableNamed = b.variableNamed := by
  obtain ⟨f, slots⟩ := b
  rcases slots with _ | ⟨⟨p, _ | v | x⟩, slots⟩ <;> rfl

theorem value_map (b : Bound) (history : Market.History Float) :
    (b.map (·.seenBy b.function)).value history = b.value history := by
  have hfunction : (b.map (·.seenBy b.function)).function = b.function := rfl
  have hwindowed : ∀ w xs,
      windowedValue (b.map (·.seenBy b.function)) w xs = windowedValue b w xs := by
    intro w xs
    unfold windowedValue
    rw [number_map, number_map, hfunction]
  unfold Bound.value
  simp only [number_map, variableNamed_map, hfunction, hwindowed]

/-- **What a function does not see does not matter to a call.** -/
theorem call_seenBy (f : Function) (args : List Argument) (keywords : List (String × Argument))
    (history : Market.History Float) :
    call f (args.map (·.seenBy f)) (keywords.map fun k => (k.1, k.2.seenBy f)) history =
      call f args keywords history := by
  unfold call
  rw [bind_map]
  rcases hb : bind f args keywords with e | b
  · rfl
  · obtain rfl := function_of_bind hb
    exact value_map b history

end TickBacktest.Indicator
