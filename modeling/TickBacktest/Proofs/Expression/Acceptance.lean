import TickBacktest.Expression.Formula
import TickBacktest.Proofs.Outcome

/-! # What the whitelist lets through

The check of a tree, constructor by constructor (`check_number_iff`, …): a tree passes when its root
does, not too deep, and all its parts do one level further down. A tree that passes has a name for
each of its names (`resolve_of_check`), so a text compiles exactly when it is accepted, and it is
rejected by both for the same reason (`compile_of_accept`, `compile_of_reject`). -/

namespace TickBacktest.Expression

open Indicator (Function)
open Market (Variable)

/-! ## The check, constructor by constructor -/

section

variable {depth : ℕ}

/-- Nothing too deep passes. -/
theorem depth_le_of_check {n : Node} (h : check depth n = .ok ()) : depth ≤ maxDepth := by
  by_contra hd
  unfold check at h
  rw [if_pos (Nat.lt_of_not_le hd)] at h
  cases h

theorem check_number_iff {x : Float} : check depth (.number x) = .ok () ↔ depth ≤ maxDepth := by
  refine ⟨depth_le_of_check, fun hd => ?_⟩
  unfold check
  exact if_neg (Nat.not_lt.mpr hd)

theorem check_name_iff {s : String} :
    check depth (.name s) = .ok () ↔ depth ≤ maxDepth ∧ ∃ v, Variable.ofName? s = some v := by
  refine (and_iff_right_of_imp depth_le_of_check).symm.trans (and_congr_right fun hd => ?_)
  unfold check
  rw [if_neg (Nat.not_lt.mpr hd)]
  dsimp only
  rcases Variable.ofName? s with _ | v
  · exact ⟨fun h => (by cases h), fun ⟨_, h⟩ => (by cases h)⟩
  · exact ⟨fun _ => ⟨v, rfl⟩, fun _ => rfl⟩

theorem check_binary_iff {op : Operator} {l r : Node} :
    check depth (.binary op l r) = .ok () ↔ depth ≤ maxDepth ∧ op.allowed = true ∧
      check (depth + 1) l = .ok () ∧ check (depth + 1) r = .ok () := by
  refine (and_iff_right_of_imp depth_le_of_check).symm.trans (and_congr_right fun hd => ?_)
  rw [check, if_neg (Nat.not_lt.mpr hd)]
  by_cases ho : op.allowed = true
  · rw [if_pos ho, bind_ok_iff]
    exact ⟨fun ⟨_, hl, hr⟩ => ⟨ho, hl, hr⟩, fun ⟨_, hl, hr⟩ => ⟨(), hl, hr⟩⟩
  · rw [if_neg ho]
    exact ⟨fun h => (by cases h), fun h => absurd h.1 ho⟩

theorem check_signed_iff {s : Sign} {n : Node} :
    check depth (.signed s n) = .ok () ↔ depth ≤ maxDepth ∧ check (depth + 1) n = .ok () := by
  refine (and_iff_right_of_imp depth_le_of_check).symm.trans (and_congr_right fun hd => ?_)
  rw [check, if_neg (Nat.not_lt.mpr hd)]

theorem check_call_iff {callee : Node} {args : List Node} {keywords : List (String × Node)} :
    check depth (.call callee args keywords) = .ok () ↔ depth ≤ maxDepth ∧
      (∃ s f, callee = .name s ∧ Function.ofName? s = some f) ∧
      checkList (depth + 1) args = .ok () ∧ checkKeywords (depth + 1) keywords = .ok () := by
  refine (and_iff_right_of_imp depth_le_of_check).symm.trans (and_congr_right fun hd => ?_)
  unfold check
  rw [if_neg (Nat.not_lt.mpr hd)]
  rcases callee with _ | _ | s | _ | _ | _ | _ | _ | _ | _
  case name =>
    dsimp only
    rcases hs : Function.ofName? s with _ | f
    · refine ⟨fun h => (by cases h), ?_⟩
      rintro ⟨⟨s', f, hn, hf⟩, -⟩
      cases hn
      rw [hs] at hf
      cases hf
    · rw [Option.isSome_some, if_pos rfl, bind_ok_iff]
      exact ⟨fun ⟨_, ha, hk⟩ => ⟨⟨s, f, rfl, hs⟩, ha, hk⟩, fun ⟨_, ha, hk⟩ => ⟨(), ha, hk⟩⟩
  all_goals
    refine ⟨fun h => (by cases h), ?_⟩
    rintro ⟨⟨s, f, hn, -⟩, -⟩
    cases hn

theorem check_compare_iff {first : Node} {links : List (Comparison × Node)} :
    check depth (.compare first links) = .ok () ↔ depth ≤ maxDepth ∧
      check (depth + 1) first = .ok () ∧ checkLinks (depth + 1) links = .ok () := by
  refine (and_iff_right_of_imp depth_le_of_check).symm.trans (and_congr_right fun hd => ?_)
  rw [check, if_neg (Nat.not_lt.mpr hd), bind_ok_iff]
  exact ⟨fun ⟨_, hf, hl⟩ => ⟨hf, hl⟩, fun ⟨hf, hl⟩ => ⟨(), hf, hl⟩⟩

theorem checkList_cons_iff {n : Node} {ns : List Node} : checkList depth (n :: ns) = .ok () ↔
    check depth n = .ok () ∧ checkList depth ns = .ok () := by
  rw [checkList, bind_ok_iff]
  exact ⟨fun ⟨_, h1, h2⟩ => ⟨h1, h2⟩, fun ⟨h1, h2⟩ => ⟨(), h1, h2⟩⟩

theorem checkKeywords_cons_iff {k : String} {n : Node} {ns : List (String × Node)} :
    checkKeywords depth ((k, n) :: ns) = .ok () ↔
      check depth n = .ok () ∧ checkKeywords depth ns = .ok () := by
  rw [checkKeywords, bind_ok_iff]
  exact ⟨fun ⟨_, h1, h2⟩ => ⟨h1, h2⟩, fun ⟨h1, h2⟩ => ⟨(), h1, h2⟩⟩

theorem checkLinks_cons_iff {op : Comparison} {n : Node} {ns : List (Comparison × Node)} :
    checkLinks depth ((op, n) :: ns) = .ok () ↔
      check depth n = .ok () ∧ checkLinks depth ns = .ok () := by
  rw [checkLinks, bind_ok_iff]
  exact ⟨fun ⟨_, h1, h2⟩ => ⟨h1, h2⟩, fun ⟨h1, h2⟩ => ⟨(), h1, h2⟩⟩

end

/-! ## Names resolved -/

theorem variableOf_of_ofName? {s : String} {v : Variable} (h : Variable.ofName? s = some v) :
    variableOf s = .ok v := by
  unfold variableOf
  rw [h]

mutual

/-- **The names of a tree that passes can be resolved.** -/
theorem resolve_of_check : ∀ (n : Node) {depth : ℕ}, check depth n = .ok () →
    ∃ e, resolve n = .ok e
  | .number x, _, _ => ⟨.number x, by rw [resolve]⟩
  | .text t, _, h => by
    rw [check] at h
    split at h <;> cases h
  | .name s, _, h => by
    obtain ⟨-, v, hv⟩ := check_name_iff.mp h
    refine ⟨.current v, ?_⟩
    rw [resolve, variableOf_of_ofName? hv]
    rfl
  | .binary op l r, _, h => by
    obtain ⟨-, -, hl, hr⟩ := check_binary_iff.mp h
    obtain ⟨el, hel⟩ := resolve_of_check l hl
    obtain ⟨er, her⟩ := resolve_of_check r hr
    refine ⟨.binary op el er, ?_⟩
    rw [resolve, hel, her]
    rfl
  | .signed s n, _, h => by
    obtain ⟨-, hn⟩ := check_signed_iff.mp h
    obtain ⟨e, he⟩ := resolve_of_check n hn
    refine ⟨.signed s e, ?_⟩
    rw [resolve, he]
    rfl
  | .call callee args keywords, _, h => by
    obtain ⟨-, ⟨s, f, rfl, hf⟩, ha, hk⟩ := check_call_iff.mp h
    obtain ⟨as, has⟩ := resolveArguments_of_check args ha
    obtain ⟨ks, hks⟩ := resolveKeywords_of_check keywords hk
    refine ⟨.call f as ks, ?_⟩
    rw [resolve, hf]
    show (resolveArguments args >>= _) = _
    rw [has, hks]
    rfl
  | .compare first links, _, h => by
    obtain ⟨-, hf, hl⟩ := check_compare_iff.mp h
    obtain ⟨e, he⟩ := resolve_of_check first hf
    obtain ⟨ls, hls⟩ := resolveLinks_of_check links hl
    refine ⟨.compare e ls, ?_⟩
    rw [resolve, he, hls]
    rfl
  | .member n s, _, h => by
    rw [check] at h
    split at h <;> cases h
  | .subscript n i, _, h => by
    rw [check] at h
    split at h <;> cases h
  | .list ns, _, h => by
    rw [check] at h
    split at h <;> cases h

theorem resolveArguments_of_check : ∀ (ns : List Node) {depth : ℕ}, checkList depth ns = .ok () →
    ∃ es, resolveArguments ns = .ok es
  | [], _, _ => ⟨[], by rw [resolveArguments]⟩
  | n :: ns, _, h => by
    obtain ⟨hn, hns⟩ := checkList_cons_iff.mp h
    obtain ⟨e, he⟩ := resolve_of_check n hn
    obtain ⟨es, hes⟩ := resolveArguments_of_check ns hns
    -- only a bare name is resolved in its own way among arguments
    rcases n with _ | _ | s | _ | _ | _ | _ | _ | _ | _
    case name =>
      obtain ⟨-, v, hv⟩ := check_name_iff.mp hn
      refine ⟨.series v :: es, ?_⟩
      rw [resolveArguments, variableOf_of_ofName? hv, hes]
      rfl
    all_goals
      refine ⟨e :: es, ?_⟩
      rw [resolveArguments, he, hes]
      · rfl
      · intro s hs
        cases hs

theorem resolveKeywords_of_check : ∀ (ns : List (String × Node)) {depth : ℕ},
    checkKeywords depth ns = .ok () → ∃ es, resolveKeywords ns = .ok es
  | [], _, _ => ⟨[], by rw [resolveKeywords]⟩
  | (k, n) :: ns, _, h => by
    obtain ⟨hn, hns⟩ := checkKeywords_cons_iff.mp h
    obtain ⟨e, he⟩ := resolve_of_check n hn
    obtain ⟨es, hes⟩ := resolveKeywords_of_check ns hns
    refine ⟨(k, e) :: es, ?_⟩
    rw [resolveKeywords, he, hes]
    rfl

theorem resolveLinks_of_check : ∀ (ns : List (Comparison × Node)) {depth : ℕ},
    checkLinks depth ns = .ok () → ∃ es, resolveLinks ns = .ok es
  | [], _, _ => ⟨[], by rw [resolveLinks]⟩
  | (op, n) :: ns, _, h => by
    obtain ⟨hn, hns⟩ := checkLinks_cons_iff.mp h
    obtain ⟨e, he⟩ := resolve_of_check n hn
    obtain ⟨es, hes⟩ := resolveLinks_of_check ns hns
    refine ⟨(op, e) :: es, ?_⟩
    rw [resolveLinks, he, hes]
    rfl

end

/-! ## Accepting and compiling -/

theorem check_of_accept {text : String} {n : Node} (h : accept text = .ok n) :
    check 0 n = .ok () := by
  unfold accept at h
  split at h
  · cases h
  · split at h
    · cases h
    · split at h
      · split at h <;> cases h
      · next hcheck =>
        split at h
        · cases h
        · next hc =>
          cases h
          exact hc

/-- **What is accepted compiles.** -/
theorem compile_of_accept {text : String} {n : Node} (h : accept text = .ok n) :
    ∃ e, resolve n = .ok e ∧ compile text = .ok ⟨text, e⟩ := by
  obtain ⟨e, he⟩ := resolve_of_check n (check_of_accept h)
  refine ⟨e, he, ?_⟩
  unfold compile
  rw [h]
  dsimp only
  rw [he]

/-- **What is rejected does not compile**, for the same reason. -/
theorem compile_of_reject {text : String} {r : Rejection} (h : accept text = .error r) :
    compile text = .error r := by
  unfold compile
  rw [h]

end TickBacktest.Expression
