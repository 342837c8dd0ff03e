import Mathlib.Data.List.Forall2
import Mathlib.Data.List.Nodup
import TickBacktest.Indicator.Function

/-! # Arguments and parameters

Which argument a parameter gets does not depend on what the arguments are: positional arguments go
to the parameters in order and keywords to those of their names (`Function.assigned`). It is said
here of arguments of any type, so that it holds of the nodes of a text and of the values at a tick
alike (`argument?_rel`). A keyword that fits goes to a parameter that has no positional argument, so
it does not matter which of them is looked for first (`argument?_of_fits`). -/

namespace TickBacktest.Indicator

variable {β : Type}

/-- The arguments of a call with the names of the parameters that they go to. -/
def Function.assigned (f : Function) (args : List β) (keywords : List (String × β)) :
    List (String × β) :=
  ((f.parameters args.length).map (·.name)).zip args ++ keywords

/-- The argument that a call gives to a parameter. -/
def Function.argument? (f : Function) (args : List β) (keywords : List (String × β))
    (parameter : String) : Option β :=
  (f.assigned args keywords).lookup parameter

/-- The arguments and keywords of a call fit the parameters of the function. -/
structure Function.Fits (f : Function) (positional : ℕ) (keywords : List String) : Prop where
  le : positional ≤ (f.parameters positional).length
  free : ∀ k ∈ keywords, k ∈ ((f.parameters positional).drop positional).map (·.name)
  nodup : keywords.Nodup
  complete : ∀ p ∈ (f.parameters positional).drop positional, p.default = none → p.name ∈ keywords

instance (f : Function) (positional : ℕ) (keywords : List String) :
    Decidable (f.Fits positional keywords) :=
  decidable_of_iff (positional ≤ (f.parameters positional).length ∧
      (∀ k ∈ keywords, k ∈ ((f.parameters positional).drop positional).map (·.name)) ∧
      keywords.Nodup ∧
      ∀ p ∈ (f.parameters positional).drop positional, p.default = none → p.name ∈ keywords)
    ⟨fun ⟨h1, h2, h3, h4⟩ => ⟨h1, h2, h3, h4⟩, fun h => ⟨h.le, h.free, h.nodup, h.complete⟩⟩

theorem isWindowed_iff {f : Function} : f.isWindowed = true ↔ ¬ f.isScalar = true := by
  rw [Function.isWindowed, Bool.not_eq_true', Bool.not_eq_true]

theorem nodup_parameters (f : Function) (n : ℕ) : ((f.parameters n).map (·.name)).Nodup := by
  cases f
  case atr =>
    unfold Function.parameters
    split_ifs <;> decide
  all_goals exact of_decide_eq_true rfl

/-! ## Looking up names -/

theorem lookup_eq_none_iff {k : String} {l : List (String × β)} :
    l.lookup k = none ↔ k ∉ l.map (·.1) := by
  rw [List.lookup_eq_none_iff]
  constructor
  · intro h hk
    obtain ⟨p, hp, rfl⟩ := List.mem_map.mp hk
    simpa using h p hp
  · intro h p hp
    exact bne_iff_ne.mpr fun hk => h (List.mem_map.mpr ⟨p, hp, hk.symm⟩)

theorem lookup_zip_eq_none_iff {names : List String} {k : String} : ∀ {args : List β},
    (names.zip args).lookup k = none ↔ k ∉ names.take args.length := by
  induction names with
  | nil => intro args; simp
  | cons s names ih =>
    intro args
    rcases args with _ | ⟨a, args⟩
    · simp
    · rw [List.zip_cons_cons, List.lookup_cons, List.length_cons, List.take_succ_cons,
        List.mem_cons, not_or]
      by_cases hk : k = s
      · simp [hk]
      · rw [beq_eq_false_iff_ne.mpr hk]
        simp [hk, ih]

/-- A value is looked up at the place of its name. -/
theorem lookup_zip {names : List String} {k : String} : ∀ {args : List β},
    (names.zip args).lookup k = (names.findIdx? (· = k)).bind (args[·]?) := by
  induction names with
  | nil => intro args; rfl
  | cons s names ih =>
    intro args
    rw [List.findIdx?_cons]
    rcases args with _ | ⟨a, args⟩
    · rw [List.zip_nil_right]
      simp
    · rw [List.zip_cons_cons, List.lookup_cons]
      by_cases hk : k = s
      · simp [hk]
      · rw [beq_eq_false_iff_ne.mpr hk, ih]
        rw [if_neg (by simpa using Ne.symm hk), Option.bind_map]
        rfl

theorem find?_map_snd (l : List (String × β)) (k : String) :
    (l.find? (·.1 = k)).map (·.2) = l.lookup k := by
  induction l with
  | nil => rfl
  | cons p l ih =>
    rw [List.lookup_cons, List.find?_cons]
    by_cases hk : p.1 = k
    · simp [hk]
    · rw [beq_eq_false_iff_ne.mpr (Ne.symm hk)]
      simpa [hk] using ih

theorem lookup_append_ne {j k : String} (h : j ≠ k) (l : List (String × β)) (a : β) :
    (l ++ [(k, a)]).lookup j = l.lookup j := by
  rw [List.lookup_append, List.lookup_cons, beq_eq_false_iff_ne.mpr h, List.lookup_nil,
    Option.or_none]

theorem mem_of_lookup {l : List (String × β)} {k : String} {a : β} (h : l.lookup k = some a) :
    (k, a) ∈ l := by
  obtain ⟨l₁, l₂, rfl, -⟩ := List.lookup_eq_some_iff.mp h
  exact List.mem_append_right _ List.mem_cons_self

theorem lookup_rel {γ : Type} {R : β → γ → Prop} {l : List (String × β)} {m : List (String × γ)}
    (h : List.Forall₂ (fun x y => x.1 = y.1 ∧ R x.2 y.2) l m) (k : String) :
    Option.Rel R (l.lookup k) (m.lookup k) := by
  induction h with
  | nil => exact .none
  | @cons x y l m hxy _ ih =>
    obtain ⟨j, b⟩ := x
    obtain ⟨j', c⟩ := y
    obtain ⟨rfl, hbc⟩ := hxy
    rw [List.lookup_cons, List.lookup_cons]
    by_cases hk : k == j
    · rw [hk]
      exact .some hbc
    · rw [Bool.eq_false_iff.mpr hk]
      exact ih

/-! ## The argument of a parameter -/

/-- A parameter that has no argument after the positional ones is one of the others. -/
theorem mem_drop_names_iff {names : List String} (h : names.Nodup) {n : ℕ} {k : String} :
    k ∈ names ∧ k ∉ names.take n ↔ k ∈ names.drop n := by
  have hsplit := List.take_append_drop n names
  have hdisjoint : List.Disjoint (names.take n) (names.drop n) :=
    List.disjoint_of_nodup_append (hsplit.symm ▸ h)
  constructor
  · rintro ⟨hk, htake⟩
    rw [← hsplit, List.mem_append] at hk
    exact hk.resolve_left htake
  · exact fun hk => ⟨List.mem_of_mem_drop hk, fun htake => hdisjoint htake hk⟩

/-- What is not among the first parameters is among the others. -/
theorem mem_drop_of_not_mem_take {ps : List Parameter} {n : ℕ} {p : Parameter} (hp : p ∈ ps)
    (hlate : p.name ∉ (ps.map (·.name)).take n) : p ∈ ps.drop n := by
  rw [← List.take_append_drop n ps, List.mem_append] at hp
  refine hp.resolve_left fun htake => hlate ?_
  rw [← List.map_take]
  exact List.mem_map_of_mem htake

/-- A parameter gets no argument when it has no positional one and no keyword of its name. -/
theorem argument?_eq_none_iff {f : Function} {args : List β} {keywords : List (String × β)}
    {k : String} : f.argument? args keywords k = none ↔
      k ∉ ((f.parameters args.length).map (·.name)).take args.length ∧
        k ∉ keywords.map (·.1) := by
  rw [Function.argument?, Function.assigned, List.lookup_append, Option.or_eq_none_iff,
    lookup_zip_eq_none_iff, lookup_eq_none_iff]

/-- Where the arguments fit, only a parameter with a default is left out. -/
theorem default_ne_none {f : Function} {args : List β} {keywords : List (String × β)}
    (hfits : f.Fits args.length (keywords.map (·.1))) {p : Parameter}
    (hp : p ∈ f.parameters args.length) (h : f.argument? args keywords p.name = none) :
    p.default ≠ none := by
  obtain ⟨hlate, hk⟩ := argument?_eq_none_iff.mp h
  exact fun hdefault => hk (hfits.complete p (mem_drop_of_not_mem_take hp hlate) hdefault)

/-- The argument of a parameter stands in its place or goes by its name. -/
theorem mem_of_argument? {f : Function} {args : List β} {keywords : List (String × β)}
    {p : Parameter} (hp : p ∈ f.parameters args.length) {a : β}
    (h : f.argument? args keywords p.name = some a) :
    (p, a) ∈ (f.parameters args.length).zip args ∨ (p.name, a) ∈ keywords := by
  rcases List.mem_append.mp (mem_of_lookup h) with hzip | hk
  · rw [List.zip_map_left, List.mem_map] at hzip
    obtain ⟨⟨q, b⟩, hq, heq⟩ := hzip
    obtain ⟨hname, rfl⟩ := Prod.mk.inj heq
    have hqp : q = p :=
      List.inj_on_of_nodup_map (nodup_parameters f _) (List.of_mem_zip hq).1 hp hname
    exact .inl (hqp ▸ hq)
  · exact .inr hk

/-- It does not matter whether keywords or positional arguments are looked at first. -/
theorem argument?_of_fits {f : Function} {args : List β} {keywords : List (String × β)}
    (hfits : f.Fits args.length (keywords.map (·.1))) (k : String) :
    f.argument? args keywords k = (keywords.lookup k).or
      ((((f.parameters args.length).map (·.name)).zip args).lookup k) := by
  rw [Function.argument?, Function.assigned, List.lookup_append]
  by_cases hk : k ∈ keywords.map (·.1)
  · have hfree := hfits.free k hk
    rw [List.map_drop, ← mem_drop_names_iff (nodup_parameters f _)] at hfree
    rw [lookup_zip_eq_none_iff.mpr hfree.2, Option.none_or, Option.or_none]
  · rw [lookup_eq_none_iff.mpr hk, Option.none_or, Option.or_none]

/-- Related arguments go to the same parameters. -/
theorem argument?_rel {γ : Type} {R : β → γ → Prop} {args : List β} {args' : List γ}
    {keywords : List (String × β)} {keywords' : List (String × γ)}
    (hargs : List.Forall₂ R args args')
    (hkeywords : List.Forall₂ (fun x y => x.1 = y.1 ∧ R x.2 y.2) keywords keywords')
    (f : Function) (k : String) :
    Option.Rel R (f.argument? args keywords k) (f.argument? args' keywords' k) := by
  refine lookup_rel ?_ k
  unfold Function.assigned
  rw [← hargs.length_eq]
  refine List.rel_append ?_ hkeywords
  generalize (f.parameters args.length).map (·.name) = names
  induction hargs generalizing names with
  | nil =>
    rw [List.zip_nil_right, List.zip_nil_right]
    exact .nil
  | cons hab _ ih =>
    rcases names with _ | ⟨s, names⟩
    · exact .nil
    · exact .cons ⟨rfl, hab⟩ (ih names)

end TickBacktest.Indicator
