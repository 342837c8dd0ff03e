import Mathlib.Data.List.Find
import TickBacktest.Proofs.Indicator.Binding

/-! # Arguments by place and by name

An argument may stand in the place of its parameter or go by its name. Where no two arguments meet
in one parameter (`Function.NoClash`), a call depends on nothing but what each parameter gets
(`bind_congr`). To name the last of the positional arguments, and to put the keywords into another
order, gives every parameter what it had (`argument?_of_named`), so the call stays what it was
(`call_by_name`).

The range of quotes has two forms, and its number of positional arguments chooses between them; the
others may be named. -/

namespace TickBacktest.Indicator

open Market (History)

variable {f : Function}

/-- **Each argument goes to a parameter of its own**, though a parameter may be left without one. -/
structure Function.NoClash (f : Function) (positional : ℕ) (keywords : List String) : Prop where
  le : positional ≤ (f.parameters positional).length
  free : ∀ k ∈ keywords, k ∈ ((f.parameters positional).map (·.name)).drop positional
  nodup : keywords.Nodup

/-- The range of quotes alone looks at the number of its arguments, and only whether they are three
or more. -/
theorem parameters_congr {m n : ℕ} (h : f = .atr → (3 ≤ m ↔ 3 ≤ n)) :
    f.parameters m = f.parameters n := by
  cases f
  case atr =>
    unfold Function.parameters
    simp only [h rfl]
  all_goals rfl

/-! ## What the parameters get -/

section

variable {β : Type}

theorem map_fst_zip (names : List String) (args : List β) :
    (names.zip args).map (·.1) = names.take args.length := by
  induction names generalizing args with
  | nil => simp
  | cons s names ih =>
    rcases args with _ | ⟨a, args⟩
    · rfl
    · rw [List.zip_cons_cons, List.map_cons, ih, List.length_cons, List.take_succ_cons]

/-- Where names are distinct, their order does not matter. -/
theorem lookup_perm {l l' : List (String × β)} (h : l.Perm l') (hnodup : (l.map (·.1)).Nodup)
    (k : String) : l.lookup k = l'.lookup k := by
  rw [← find?_map_snd, ← find?_map_snd]
  refine congrArg (Option.map (·.2)) (List.find?_eq_find?_of_perm h ?_)
  rintro x ⟨hx, hxk⟩ y ⟨hy, hyk⟩
  have hname : x.1 = y.1 := (of_decide_eq_true hxk).trans (of_decide_eq_true hyk).symm
  exact List.inj_on_of_nodup_map hnodup hx hy hname

variable {args front back : List β} {keywords keywords' : List (String × β)}

theorem nodup_assigned (h : f.NoClash args.length (keywords.map (·.1))) :
    ((f.assigned args keywords).map (·.1)).Nodup := by
  have hnames := nodup_parameters f args.length
  unfold Function.assigned
  rw [List.map_append, map_fst_zip, List.nodup_append]
  refine ⟨hnames.sublist (List.take_sublist _ _), h.nodup, fun j hj k hk hjk => ?_⟩
  have hfree := ((mem_drop_names_iff hnames).mpr (h.free k hk)).2
  exact hfree (hjk ▸ hj)

/-- The arguments behind the first ones go to the parameters behind the first. -/
theorem zip_append_right {names : List String} (h : front.length ≤ names.length) :
    names.zip (front ++ back) = names.zip front ++ (names.drop front.length).zip back := by
  induction front generalizing names with
  | nil => simp
  | cons a front ih =>
    obtain _ | ⟨s, names⟩ := names
    · cases h
    · rw [List.cons_append, List.zip_cons_cons, List.zip_cons_cons, List.length_cons,
        List.drop_succ_cons, List.cons_append, ih (Nat.le_of_succ_le_succ h)]

end

/-! ## Naming the last arguments -/

section

variable {β : Type} {front back : List β} {keywords keywords' : List (String × β)}
  (h : f.NoClash (front ++ back).length (keywords.map (·.1)))
  (hform : f = .atr → (3 ≤ front.length ↔ 3 ≤ (front ++ back).length))
  (hnamed : keywords'.Perm
    ((((f.parameters (front ++ back).length).map (·.name)).drop front.length).zip back ++ keywords))

include h hform hnamed

theorem assigned_perm :
    (f.assigned (front ++ back) keywords).Perm (f.assigned front keywords') := by
  have hlen : front.length ≤ ((f.parameters (front ++ back).length).map (·.name)).length := by
    have hle := h.le
    rw [List.length_append] at hle
    rw [List.length_map, List.length_append]
    omega
  unfold Function.assigned
  rw [zip_append_right hlen, parameters_congr hform, List.append_assoc]
  exact hnamed.symm.append_left _

/-- **What is named stays with its parameter.** -/
theorem argument?_of_named (k : String) :
    f.argument? (front ++ back) keywords k = f.argument? front keywords' k :=
  lookup_perm (assigned_perm h hform hnamed) (nodup_assigned h) k

/-- Arguments that are named meet no others. -/
theorem noClash_of_named : f.NoClash front.length (keywords'.map (·.1)) := by
  have hps := parameters_congr hform
  have hlen : (front ++ back).length = front.length + back.length := List.length_append
  have hle := h.le
  refine ⟨?_, fun k hk => ?_, ?_⟩
  · rw [hps]
    omega
  · have hperm := hnamed.map (·.1)
    rw [List.map_append, map_fst_zip] at hperm
    rw [hps]
    rcases List.mem_append.mp (hperm.mem_iff.mp hk) with hk | hk
    · exact List.mem_of_mem_take hk
    · have hlate := h.free k hk
      exact List.drop_subset_drop_left _ (by omega) hlate
  · have hnodup := ((assigned_perm h hform hnamed).map (·.1)).nodup_iff.mp (nodup_assigned h)
    unfold Function.assigned at hnodup
    rw [List.map_append] at hnodup
    exact hnodup.of_append_right

end

/-! ## Calls -/

section

variable {args args' : List Argument} {keywords keywords' : List (String × Argument)}

/-- Arguments that do not clash are all given to their parameters. -/
theorem foldlM_giveKeyword_of_noClash (h : f.NoClash args.length (keywords.map (·.1))) :
    keywords.foldlM (fun slots (k, a) => giveKeyword f slots k a)
        ((f.parameters args.length).zip (args.map some ++
          List.replicate ((f.parameters args.length).length - args.length) none)) =
      .ok (slotsOf (f.parameters args.length) (f.assigned args keywords)) := by
  have hnames := nodup_parameters f args.length
  rw [zip_positional hnames h.le]
  refine (foldlM_giveKeyword_ok_iff f _ _).mpr ⟨⟨fun k hk => ?_, h.nodup⟩, rfl⟩
  rw [lookup_zip_eq_none_iff, mem_drop_names_iff hnames]
  exact h.free k hk

/-- **Nothing but what each parameter gets counts in a call.** -/
theorem bind_congr (h : f.NoClash args.length (keywords.map (·.1)))
    (h' : f.NoClash args'.length (keywords'.map (·.1)))
    (hps : f.parameters args.length = f.parameters args'.length)
    (hsame : ∀ k, f.argument? args keywords k = f.argument? args' keywords' k) :
    bind f args keywords = bind f args' keywords' := by
  have hslots : slotsOf (f.parameters args.length) (f.assigned args keywords) =
      slotsOf (f.parameters args'.length) (f.assigned args' keywords') := by
    rw [hps]
    exact List.map_congr_left fun p _ => congrArg (Prod.mk p) (hsame p.name)
  unfold bind
  dsimp only
  rw [if_neg (Nat.not_lt.mpr h.le), if_neg (Nat.not_lt.mpr h'.le),
    foldlM_giveKeyword_of_noClash h, foldlM_giveKeyword_of_noClash h', hslots]

/-- **Passing by place and by name are the same.** The last positional arguments may go by the names
of their parameters, and the keywords may stand in any order. -/
theorem call_by_name {front back : List Argument}
    (h : f.NoClash (front ++ back).length (keywords.map (·.1)))
    (hform : f = .atr → (3 ≤ front.length ↔ 3 ≤ (front ++ back).length))
    (hnamed : keywords'.Perm
      ((((f.parameters (front ++ back).length).map (·.name)).drop front.length).zip back ++
        keywords)) (history : History Float) :
    call f (front ++ back) keywords history = call f front keywords' history := by
  have hbind : bind f (front ++ back) keywords = bind f front keywords' :=
    bind_congr h (noClash_of_named h hform hnamed) (parameters_congr hform).symm
      (argument?_of_named h hform hnamed)
  unfold call
  rw [hbind]

end

/-- A series, a window and a number of deviations, all three by their names. -/
def namedBands : List (String × Argument) :=
  [("num_std", .scalar (some 1.5)), ("window", .scalar (some 3)), ("data", .series .mid 100)]

theorem call_by_name_bands : Function.bbwidth.NoClash 2 ["num_std"] ∧
    call .bbwidth [.series .mid 100, .scalar (some 3)] [("num_std", .scalar (some 1.5))]
        (fun _ => some [100, 102, 101]) =
      call .bbwidth [] namedBands (fun _ => some [100, 102, 101]) := by
  have h : Function.bbwidth.NoClash 2 ["num_std"] := ⟨by decide, by decide, by decide⟩
  have hnamed : namedBands.Perm [("data", .series .mid 100), ("window", .scalar (some 3)),
      ("num_std", .scalar (some 1.5))] := (List.reverse_perm namedBands).symm
  exact ⟨h, @call_by_name .bbwidth [("num_std", .scalar (some 1.5))] namedBands []
    [.series .mid 100, .scalar (some 3)] h (fun hatr => by cases hatr) hnamed _⟩

end TickBacktest.Indicator
