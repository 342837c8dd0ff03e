import TickBacktest.Proofs.Expression.Parts
import TickBacktest.Proofs.Indicator.Binding

/-! # The arguments of a call

What a function is called with is told by the text only in part (`Given`): a series goes by its name
and a number is itself, but the value of anything else depends on the market. Whether a call binds,
and which argument a parameter gets, is the same for all that may be given (`Given.fits_iff`,
`Given.argument?`).

A call is evaluated on what its function sees of the arguments (`eval_call`). -/

namespace TickBacktest.Expression

open Indicator (Argument Function)
open Market (History Values Variable)

/-! ## What an argument gives -/

/-- What an argument of a call may be evaluated to. -/
inductive Formula.Gives : Formula → Argument → Prop
  | series (v : Variable) (x : Float) : Gives (.series v) (.series v x)
  | number (x : Float) : Gives (.number x) (.scalar (some x))
  | other {e : Formula} (hs : ∀ v, e ≠ .series v) (hn : ∀ x, e ≠ .number x) (x : Option Float) :
    Gives e (.scalar x)

/-- What the arguments of a call may be evaluated to. -/
structure Given (args : List Formula) (keywords : List (String × Formula))
    (as : List Argument) (ks : List (String × Argument)) : Prop where
  args : List.Forall₂ Formula.Gives args as
  keywords : List.Forall₂ (fun x y => x.1 = y.1 ∧ x.2.Gives y.2) keywords ks

theorem Formula.exists_gives (e : Formula) : ∃ a, e.Gives a := by
  cases e
  case series v => exact ⟨_, .series v 0⟩
  case number x => exact ⟨_, .number x⟩
  all_goals exact ⟨.scalar none, .other (fun _ h => (by cases h)) (fun _ h => (by cases h)) _⟩

/-- Some arguments are always given. -/
theorem exists_given (args : List Formula) (keywords : List (String × Formula)) :
    ∃ as ks, Given args keywords as ks := by
  choose a ha using Formula.exists_gives
  refine ⟨args.map a, keywords.map fun k => (k.1, a k.2), ?_, ?_⟩
  · exact List.forall₂_map_right_iff.mpr (List.forall₂_same.mpr fun e _ => ha e)
  · exact List.forall₂_map_right_iff.mpr (List.forall₂_same.mpr fun k _ => ⟨rfl, ha k.2⟩)

/-! ## What is known of the arguments -/

section

variable {f : Function} {args : List Formula} {keywords : List (String × Formula)}
  {as : List Argument} {ks : List (String × Argument)}

theorem Given.mem_args (h : Given args keywords as ks) {v : Variable} {x : Float}
    (hv : .series v x ∈ as) : .series v ∈ args := by
  obtain ⟨e, he, hg⟩ := exists_of_forall₂_of_mem h.args hv
  cases hg
  exact he

theorem Given.mem_keywords (h : Given args keywords as ks) {k : String} {v : Variable}
    {x : Float} (hv : (k, .series v x) ∈ ks) : (k, .series v) ∈ keywords := by
  obtain ⟨⟨j, e⟩, he, rfl, hg⟩ := exists_of_forall₂_of_mem h.keywords hv
  cases hg
  exact he

theorem Given.fits_iff (hg : Given args keywords as ks) :
    f.Fits as.length (ks.map (·.1)) ↔ f.Fits args.length (keywords.map (·.1)) := by
  obtain ⟨hargs, hkeywords⟩ := hg
  have hnames : keywords.map (·.1) = ks.map (·.1) := by
    induction hkeywords with
    | nil => rfl
    | cons h _ ih => rw [List.map_cons, List.map_cons, h.1, ih]
  rw [hargs.length_eq, hnames]

theorem Given.argument? (hg : Given args keywords as ks) (f : Function) (k : String) :
    Option.Rel Formula.Gives (f.argument? args keywords k) (f.argument? as ks k) :=
  Indicator.argument?_rel hg.args hg.keywords f k

theorem Given.argument?_number (hg : Given args keywords as ks) {k : String} {x : Float}
    (h : f.argument? args keywords k = some (.number x)) :
    f.argument? as ks k = some (.scalar (some x)) := by
  have hrel := hg.argument? f k
  rw [h] at hrel
  generalize f.argument? as ks k = r at hrel ⊢
  cases hrel with
  | some hx =>
    cases hx with
    | number x => rfl
    | other _ hn _ => exact absurd rfl (hn x)

theorem Given.argument?_none (hg : Given args keywords as ks) {k : String}
    (h : f.argument? args keywords k = none) : f.argument? as ks k = none := by
  have hrel := hg.argument? f k
  rw [h] at hrel
  generalize f.argument? as ks k = r at hrel ⊢
  cases hrel
  rfl

theorem Given.exists_bind (hg : Given args keywords as ks)
    (hfits : f.Fits args.length (keywords.map (·.1))) : ∃ b, Indicator.bind f as ks = .ok b :=
  ⟨_, Indicator.bind_ok_iff_fits.mpr ⟨hg.fits_iff.mpr hfits, rfl⟩⟩

end

/-! ## Arguments as a function sees them -/

section

variable (values : Values Float) (history : History Float)

/-- The value of an argument. -/
def argumentOf : Formula → Except Fault Argument
  | .series v => .ok (.series v (values.get v))
  | e => (eval values history e).map .scalar

/-- The same for a keyword. -/
def keywordOf (k : String × Formula) : Except Fault (String × Argument) :=
  (argumentOf values history k.2).map (k.1, ·)

/-- The value of an argument, as far as a function sees it. -/
def argumentFor (f : Function) (e : Formula) : Except Fault Argument :=
  (argumentOf values history e).map (·.seenBy f)

def keywordFor (f : Function) (k : String × Formula) : Except Fault (String × Argument) :=
  (argumentFor values history f k.2).map (k.1, ·)

theorem argumentOf_of_ne {e : Formula} (h : ∀ v, e ≠ .series v) :
    argumentOf values history e = (eval values history e).map .scalar := by
  cases e
  case series v => exact absurd rfl (h v)
  all_goals rfl

theorem evalArguments_eq (es : List Formula) :
    evalArguments values history es = es.mapM (argumentOf values history) := by
  induction es with
  | nil => rfl
  | cons e es ih =>
    rw [List.mapM_cons, ← ih]
    cases e
    case series v => rfl
    all_goals
      rw [evalArguments]
      · rw [argumentOf_of_ne _ _ (fun _ h => (by cases h))]
        generalize eval values history _ = r
        rcases r with _ | _ <;> rfl
      · exact fun _ h => (by cases h)

theorem evalKeywords_eq (ks : List (String × Formula)) :
    evalKeywords values history ks = ks.mapM (keywordOf values history) := by
  induction ks with
  | nil => rfl
  | cons k ks ih =>
    obtain ⟨s, e⟩ := k
    rw [List.mapM_cons, ← ih]
    cases e
    case series v => rfl
    all_goals
      rw [evalKeywords]
      · rw [keywordOf, argumentOf_of_ne _ _ (fun _ h => (by cases h))]
        generalize eval values history _ = r
        rcases r with _ | _ <;> rfl
      · exact fun _ h => (by cases h)

/-- **A call is evaluated on what its function sees of the arguments.** -/
theorem eval_call (f : Function) (args : List Formula) (keywords : List (String × Formula)) :
    eval values history (.call f args keywords) = (do
      let as ← args.mapM (argumentFor values history f)
      let ks ← keywords.mapM (keywordFor values history f)
      Indicator.call f as ks history) := by
  have hargs : args.mapM (argumentFor values history f) =
      (args.mapM (argumentOf values history)).map (List.map (·.seenBy f)) := mapM_map ..
  have hkeywords : keywords.mapM (keywordFor values history f) =
      (keywords.mapM (keywordOf values history)).map
        (List.map fun k => (k.1, k.2.seenBy f)) := by
    rw [← mapM_map]
    congr 1
    funext k
    unfold keywordFor keywordOf argumentFor
    rcases argumentOf values history k.2 with _ | _ <;> rfl
  rw [eval, evalArguments_eq, evalKeywords_eq, hargs, hkeywords]
  rcases args.mapM (argumentOf values history) with _ | as
  · rfl
  generalize keywords.mapM (keywordOf values history) = r
  rcases r with _ | ks
  · rfl
  exact (Indicator.call_seenBy f as ks history).symm

variable {values history} {f : Function}

theorem gives_of_argumentFor {e : Formula} {a : Argument}
    (h : argumentFor values history f e = .ok a) : e.Gives a := by
  unfold argumentFor at h
  by_cases hs : ∃ v, e = .series v
  · obtain ⟨v, rfl⟩ := hs
    cases h
    exact .series _ _
  · have hs' : ∀ v, e ≠ .series v := fun v hv => hs ⟨v, hv⟩
    rw [argumentOf_of_ne _ _ hs'] at h
    by_cases hn : ∃ x, e = .number x
    · obtain ⟨x, rfl⟩ := hn
      rw [eval] at h
      cases h
      exact .number x
    · rcases hx : eval values history e with _ | x
      · rw [hx] at h
        cases h
      · rw [hx] at h
        cases h
        exact .other hs' (fun x hx => hn ⟨x, hx⟩) x

theorem given_of_mapM {args : List Formula} {keywords : List (String × Formula)}
    {as : List Argument} {ks : List (String × Argument)}
    (has : args.mapM (argumentFor values history f) = .ok as)
    (hks : keywords.mapM (keywordFor values history f) = .ok ks) :
    Given args keywords as ks := by
  refine ⟨(mapM_ok_iff.mp has).imp fun _ _ h => gives_of_argumentFor h,
    (mapM_ok_iff.mp hks).imp fun k a h => ?_⟩
  unfold keywordFor at h
  rcases hx : argumentFor values history f k.2 with _ | x
  · rw [hx] at h
    cases h
  · rw [hx] at h
    cases h
    exact ⟨rfl, gives_of_argumentFor hx⟩

end

end TickBacktest.Expression
