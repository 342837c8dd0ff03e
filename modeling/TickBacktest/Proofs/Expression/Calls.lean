import TickBacktest.Proofs.Expression.Arguments

/-! # Evaluation through calls

A formula reads the market in two ways: its parts that are variables read current values, and its
calls read series. Two evaluations are therefore equal when the current values that the formula
reads are, and the calls in it are (`eval_congr`), and evaluation fails for no other reason than its
arithmetic and its calls (`eval_error`). Both are said of whatever arguments a call may get. -/

namespace TickBacktest.Expression

open Indicator (Argument Function)
open Market (History Values Variable)

/-! ## What evaluation depends on -/

namespace Formula

/-- The variable whose series a formula is. -/
def series? : Formula → Option Variable
  | .series v => some v
  | _ => none

/-- The variables whose current value a formula reads itself, not through the formulas below it. -/
def currentsHere : Formula → List Variable
  | .current v => [v]
  | .call f args _ => if f.isScalar then args.filterMap series? else []
  | _ => []

/-- The variables whose current value a formula reads: those that occur anywhere but as a positional
argument of a windowed call. -/
def currents (e : Formula) : List Variable := e.parts.flatMap currentsHere

end Formula

section

variable {values values' : Values Float} {history history' : History Float}

/-- What a formula reads is the same in two markets. -/
structure ReadsAlike (values values' : Values Float) (history history' : History Float)
    (e : Formula) : Prop where
  currents : ∀ v ∈ e.currents, values.get v = values'.get v
  calls : ∀ f args keywords, .call f args keywords ∈ e.parts → ∀ as ks,
    Given args keywords as ks → Indicator.call f as ks history = Indicator.call f as ks history'

theorem ReadsAlike.mono {d e : Formula} (h : ReadsAlike values values' history history' e)
    (hsub : d.parts ⊆ e.parts) : ReadsAlike values values' history history' d := by
  refine ⟨fun v hv => h.currents v ?_, fun f args ks hc => h.calls f args ks (hsub hc)⟩
  obtain ⟨p, hp, hv⟩ := List.mem_flatMap.mp hv
  exact List.mem_flatMap.mpr ⟨p, hsub hp, hv⟩

theorem evalLinks_congr {links : List (Comparison × Formula)}
    (h : ∀ l ∈ links, eval values history l.2 = eval values' history' l.2) : ∀ x : Float,
    evalLinks values history x links = evalLinks values' history' x links := by
  induction links with
  | nil => intro x; rfl
  | cons l links ih =>
    intro x
    obtain ⟨hl, hlinks⟩ := List.forall_mem_cons.mp h
    rw [evalLinks, evalLinks, hl]
    refine bind_congr fun y => ?_
    obtain _ | y := y
    · rfl
    · exact congrArg (fun r => if l.1.holds x y then r else pure (some 0)) (ih hlinks y)

/-- A function sees the same of an argument that reads the same. -/
theorem argumentFor_congr {f : Function} {args : List Formula}
    {keywords : List (String × Formula)} {e : Formula} (he : e ∈ args)
    (hplaced : WellPlacedArguments args)
    (h : ReadsAlike values values' history history' (.call f args keywords))
    (heval : e.WellPlaced → eval values history e = eval values' history' e) :
    argumentFor values history f e = argumentFor values' history' f e := by
  unfold argumentFor
  by_cases hs : ∃ v, e = .series v
  · obtain ⟨v, rfl⟩ := hs
    show Except.ok (Argument.series v _) = Except.ok (Argument.series v _)
    by_cases hf : f.isScalar
    · have hv : v ∈ (Formula.call f args keywords).currents := by
        refine List.mem_flatMap.mpr ⟨_, Formula.self_mem_parts _, ?_⟩
        rw [Formula.currentsHere, if_pos hf]
        exact List.mem_filterMap.mpr ⟨_, he, rfl⟩
      rw [if_pos hf, if_pos hf, h.currents v hv]
    · rw [if_neg hf, if_neg hf]
  · have hs' : ∀ v, e ≠ .series v := fun v hv => hs ⟨v, hv⟩
    have hwell := (placed_of_mem_arguments hplaced he).resolve_left hs
    rw [argumentOf_of_ne _ _ hs', argumentOf_of_ne _ _ hs', heval hwell]

theorem keywordFor_congr (f : Function) {k : String × Formula} (hk : k.2.WellPlaced)
    (heval : eval values history k.2 = eval values' history' k.2) :
    keywordFor values history f k = keywordFor values' history' f k := by
  have hs : ∀ v, k.2 ≠ .series v := fun v hv => (by rw [hv] at hk; exact hk)
  unfold keywordFor argumentFor
  rw [argumentOf_of_ne _ _ hs, argumentOf_of_ne _ _ hs, heval]

/-- **Evaluation depends on the current values that a formula reads and on its calls.** -/
theorem eval_congr (e : Formula) (hplaced : e.WellPlaced)
    (h : ReadsAlike values values' history history' e) :
    eval values history e = eval values' history' e := by
  induction e using Formula.induction with
  | number x => rw [eval, eval]
  | current v =>
    rw [eval, eval, h.currents v (List.mem_flatMap.mpr ⟨_, Formula.self_mem_parts _, .head _⟩)]
  | series v => exact hplaced.elim
  | binary op left right hl hr =>
    rw [eval, eval, hl hplaced.2.1 (h.mono (Formula.parts_subset_binary_left _ _ _)),
      hr hplaced.2.2 (h.mono (Formula.parts_subset_binary_right _ _ _))]
  | signed sign operand ho =>
    rw [eval, eval, ho hplaced (h.mono (Formula.parts_subset_signed _ _))]
  | call f args keywords ha hk =>
    have hargs : args.mapM (argumentFor values history f) =
        args.mapM (argumentFor values' history' f) :=
      mapM_congr fun e he => argumentFor_congr he hplaced.1 h fun hw =>
        ha e he hw (h.mono (Formula.parts_subset_call_of_mem he))
    have hkeywords : keywords.mapM (keywordFor values history f) =
        keywords.mapM (keywordFor values' history' f) :=
      mapM_congr fun k hk' => keywordFor_congr f (placed_of_mem_keywords hplaced.2 hk')
        (hk k hk' (placed_of_mem_keywords hplaced.2 hk')
          (h.mono (Formula.parts_subset_call_of_keyword hk')))
    rw [eval_call, eval_call, ← hargs, ← hkeywords]
    -- the calls are the same on all that may be given, and these arguments are
    rcases has : args.mapM (argumentFor values history f) with _ | as
    · rfl
    rcases hks : keywords.mapM (keywordFor values history f) with _ | ks
    · rfl
    exact h.calls f args keywords (Formula.self_mem_parts _) as ks (given_of_mapM has hks)
  | compare first links hf hl =>
    rw [eval, eval, hf hplaced.1 (h.mono (Formula.parts_subset_compare_first _ _))]
    refine bind_congr fun x => ?_
    obtain _ | x := x
    · rfl
    · exact evalLinks_congr (fun l hl' => hl l hl' (placed_of_mem_links hplaced.2 hl')
        (h.mono (Formula.parts_subset_compare_of_mem hl'))) x

end

/-! ## Why evaluation fails -/

section

variable {values : Values Float} {history : History Float} {fault : Fault}

/-- A fault of a formula that is due to its arithmetic or to one of its calls. -/
def Explained (history : History Float) (fault : Fault) (e : Formula) : Prop :=
  (∃ a, fault = .arithmetic a) ∨
    ∃ f args keywords as ks, .call f args keywords ∈ e.parts ∧ Given args keywords as ks ∧
      Indicator.call f as ks history = .error fault

theorem Explained.mono {d e : Formula} (h : Explained history fault d) (hsub : d.parts ⊆ e.parts) :
    Explained history fault e :=
  h.imp_right fun ⟨f, args, keywords, as, ks, hc, hg, hf⟩ =>
    ⟨f, args, keywords, as, ks, hsub hc, hg, hf⟩

theorem operate_error {op : Operator} (hop : op ≠ .floorDiv) {x y : Float}
    (h : operate op x y = .error fault) : ∃ a, fault = .arithmetic a := by
  unfold operate at h
  cases op
  case add | sub | mul => cases h
  case floorDiv => exact absurd rfl hop
  case div | mod =>
    dsimp only at h
    split at h
    · cases h
      exact ⟨_, rfl⟩
    · cases h
  case pow =>
    dsimp only at h
    split at h
    · cases h
      exact ⟨_, rfl⟩
    · split at h
      · cases h
        exact ⟨_, rfl⟩
      · cases h

theorem evalLinks_error {links : List (Comparison × Formula)} : ∀ {x : Float},
    evalLinks values history x links = .error fault →
      ∃ l ∈ links, eval values history l.2 = .error fault := by
  induction links with
  | nil => intro x h; cases h
  | cons l links ih =>
    intro x h
    rw [evalLinks] at h
    rcases bind_error_iff.mp h with h | ⟨y, -, h⟩
    · exact ⟨l, .head _, h⟩
    obtain _ | y := y
    · cases h
    · dsimp only at h
      split at h
      · obtain ⟨j, hj, h⟩ := ih h
        exact ⟨j, .tail _ hj, h⟩
      · cases h

/-- An argument fails where it is evaluated, which no series is. -/
theorem argumentFor_error {f : Function} {e : Formula}
    (h : argumentFor values history f e = .error fault) :
    (∀ v, e ≠ .series v) ∧ eval values history e = .error fault := by
  unfold argumentFor at h
  by_cases hs : ∃ v, e = .series v
  · obtain ⟨v, rfl⟩ := hs
    cases h
  · have hs' : ∀ v, e ≠ .series v := fun v hv => hs ⟨v, hv⟩
    rw [argumentOf_of_ne _ _ hs'] at h
    refine ⟨hs', ?_⟩
    rcases hx : eval values history e with _ | x
    · rw [hx] at h
      cases h
      rfl
    · rw [hx] at h
      cases h

theorem keywordFor_error {f : Function} {k : String × Formula}
    (h : keywordFor values history f k = .error fault) :
    eval values history k.2 = .error fault := by
  unfold keywordFor at h
  rcases hx : argumentFor values history f k.2 with _ | x
  · rw [hx] at h
    cases h
    exact (argumentFor_error hx).2
  · rw [hx] at h
    cases h

/-- **Evaluation fails in its arithmetic or in a call.** -/
theorem eval_error (e : Formula) (hplaced : e.WellPlaced)
    (h : eval values history e = .error fault) : Explained history fault e := by
  induction e using Formula.induction with
  | number x => rw [eval] at h; cases h
  | current v => rw [eval] at h; cases h
  | series v => exact hplaced.elim
  | binary op left right hl hr =>
    rw [eval] at h
    rcases bind_error_iff.mp h with h | ⟨x, -, h⟩
    · exact (hl hplaced.2.1 h).mono (Formula.parts_subset_binary_left _ _ _)
    rcases bind_error_iff.mp h with h | ⟨y, -, h⟩
    · exact (hr hplaced.2.2 h).mono (Formula.parts_subset_binary_right _ _ _)
    obtain _ | x := x
    · cases h
    obtain _ | y := y
    · cases h
    exact .inl (operate_error hplaced.1 (bind_pure_error_iff.mp h))
  | signed sign operand ho =>
    rw [eval] at h
    exact (ho hplaced (bind_pure_error_iff.mp h)).mono (Formula.parts_subset_signed _ _)
  | call f args keywords ha hk =>
    rw [eval_call] at h
    rcases bind_error_iff.mp h with h | ⟨as, has, h⟩
    · obtain ⟨e, he, h⟩ := exists_error_of_mapM h
      obtain ⟨hs, h⟩ := argumentFor_error h
      have hw := (placed_of_mem_arguments hplaced.1 he).resolve_left fun ⟨v, hv⟩ => hs v hv
      exact (ha e he hw h).mono (Formula.parts_subset_call_of_mem he)
    rcases bind_error_iff.mp h with h | ⟨ks, hks, h⟩
    · obtain ⟨k, hk', h⟩ := exists_error_of_mapM h
      exact (hk k hk' (placed_of_mem_keywords hplaced.2 hk') (keywordFor_error h)).mono
        (Formula.parts_subset_call_of_keyword hk')
    exact .inr ⟨f, args, keywords, as, ks, Formula.self_mem_parts _, given_of_mapM has hks, h⟩
  | compare first links hf hl =>
    rw [eval] at h
    rcases bind_error_iff.mp h with h | ⟨x, -, h⟩
    · exact (hf hplaced.1 h).mono (Formula.parts_subset_compare_first _ _)
    obtain _ | x := x
    · cases h
    obtain ⟨l, hl', h⟩ := evalLinks_error h
    exact (hl l hl' (placed_of_mem_links hplaced.2 hl') h).mono
      (Formula.parts_subset_compare_of_mem hl')

end

end TickBacktest.Expression
