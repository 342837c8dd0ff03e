import Mathlib.Data.List.DropRight
import TickBacktest.Expression.Evaluation
import TickBacktest.Proofs.Expression.Acceptance

/-! # The sandbox

What the whitelist lets through, said of the tree as a whole: every node lies at most `maxDepth`
levels down and is of an allowed kind (`check_iff`). The callee of a call is no node of its own, it
is part of the call.

What is let through compiles to the same tree with its names resolved (`Formula.node`), in which a
series stands for a bare name among the positional arguments of a call and for nothing else, and
there is no floor division (`Formula.WellPlaced`). Evaluation has an answer for a series in the
place of a number and for a floor division all the same. `evalWith` is evaluation with these two
answers left open (`evalWith_given`); on a formula that is well placed they are never asked for
(`evalWith_eq`). -/

namespace TickBacktest.Expression

open Indicator (Argument Function)
open Market (History Values Variable)

/-! ## Nodes and their levels -/

mutual

/-- The nodes of a tree whose root is at level `depth`, each with its level, without callees. -/
def Node.placed (depth : ℕ) : Node → List (ℕ × Node)
  | n@(.number _) | n@(.text _) | n@(.name _) => [(depth, n)]
  | n@(.binary _ left right) =>
    (depth, n) :: (left.placed (depth + 1) ++ right.placed (depth + 1))
  | n@(.signed _ operand) => (depth, n) :: operand.placed (depth + 1)
  | n@(.call _ args keywords) =>
    (depth, n) :: (placedList (depth + 1) args ++ placedKeywords (depth + 1) keywords)
  | n@(.compare first links) =>
    (depth, n) :: (first.placed (depth + 1) ++ placedLinks (depth + 1) links)
  | n@(.member value _) => (depth, n) :: value.placed (depth + 1)
  | n@(.subscript value index) =>
    (depth, n) :: (value.placed (depth + 1) ++ index.placed (depth + 1))
  | n@(.list items) => (depth, n) :: placedList (depth + 1) items

def placedList (depth : ℕ) : List Node → List (ℕ × Node)
  | [] => []
  | n :: ns => n.placed depth ++ placedList depth ns

def placedKeywords (depth : ℕ) : List (String × Node) → List (ℕ × Node)
  | [] => []
  | (_, n) :: ns => n.placed depth ++ placedKeywords depth ns

def placedLinks (depth : ℕ) : List (Comparison × Node) → List (ℕ × Node)
  | [] => []
  | (_, n) :: ns => n.placed depth ++ placedLinks depth ns

end

/-- The kinds of nodes that an expression may have. -/
def Node.Allowed : Node → Prop
  | .number _ | .signed _ _ | .compare _ _ => True
  | .name s => ∃ v : Variable, s = v.name
  | .binary op _ _ => op ≠ .floorDiv
  | .call (.name s) _ _ => ∃ f : Function, s = f.name
  | _ => False

/-- A node that the whitelist lets through. -/
def Admitted (p : ℕ × Node) : Prop := p.1 ≤ maxDepth ∧ p.2.Allowed

theorem allowed_eq_true_iff {op : Operator} : op.allowed = true ↔ op ≠ .floorDiv := by
  cases op <;> simp [Operator.allowed]

theorem allowed_call_iff {callee : Node} {args : List Node} {keywords : List (String × Node)} :
    (Node.call callee args keywords).Allowed ↔
      ∃ s f, callee = .name s ∧ Function.ofName? s = some f := by
  constructor
  · intro h
    cases callee
    case name s =>
      obtain ⟨f, hf⟩ := h
      exact ⟨s, f, rfl, Function.ofName?_eq_some_iff.mpr hf⟩
    all_goals exact h.elim
  · rintro ⟨s, f, rfl, hf⟩
    exact ⟨f, Function.ofName?_eq_some_iff.mp hf⟩

theorem allowed_name_iff {s : String} :
    (Node.name s).Allowed ↔ ∃ v, Variable.ofName? s = some v :=
  exists_congr fun _ => Variable.ofName?_eq_some_iff.symm

/-- Only the allowed kinds pass. -/
theorem allowed_of_check {depth : ℕ} {n : Node} (h : check depth n = .ok ()) : n.Allowed := by
  cases n
  case number => trivial
  case signed => trivial
  case compare => trivial
  case name => exact allowed_name_iff.mpr (check_name_iff.mp h).2
  case binary => exact allowed_eq_true_iff.mp (check_binary_iff.mp h).2.1
  case call => exact allowed_call_iff.mpr (check_call_iff.mp h).2.1
  all_goals
    rw [check] at h
    split at h <;> cases h

theorem admitted_of_check {depth : ℕ} {n : Node} (h : check depth n = .ok ()) :
    Admitted (depth, n) :=
  ⟨depth_le_of_check h, allowed_of_check h⟩

mutual

/-- **A tree passes exactly when each of its nodes is admitted.** -/
theorem check_iff : ∀ (n : Node) (depth : ℕ),
    check depth n = .ok () ↔ ∀ p ∈ n.placed depth, Admitted p
  | .number x, depth => by
    rw [Node.placed, List.forall_mem_singleton, check_number_iff]
    exact ⟨fun h => ⟨h, trivial⟩, fun h => h.1⟩
  | .text t, depth => by
    rw [Node.placed, List.forall_mem_singleton]
    exact ⟨admitted_of_check, fun h => h.2.elim⟩
  | .name s, depth => by
    rw [Node.placed, List.forall_mem_singleton, check_name_iff, ← allowed_name_iff]
    rfl
  | .binary op l r, depth => by
    rw [Node.placed, List.forall_mem_cons, List.forall_mem_append, ← check_iff l, ← check_iff r,
      check_binary_iff, allowed_eq_true_iff, ← and_assoc]
    rfl
  | .signed s n, depth => by
    rw [Node.placed, List.forall_mem_cons, ← check_iff n, check_signed_iff]
    exact ⟨fun h => ⟨⟨h.1, trivial⟩, h.2⟩, fun h => ⟨h.1.1, h.2⟩⟩
  | .call callee args keywords, depth => by
    rw [Node.placed, List.forall_mem_cons, List.forall_mem_append, ← checkList_iff args,
      ← checkKeywords_iff keywords, check_call_iff, ← allowed_call_iff, ← and_assoc]
    rfl
  | .compare first links, depth => by
    rw [Node.placed, List.forall_mem_cons, List.forall_mem_append, ← check_iff first,
      ← checkLinks_iff links, check_compare_iff]
    exact ⟨fun h => ⟨⟨h.1, trivial⟩, h.2⟩, fun h => ⟨h.1.1, h.2⟩⟩
  | .member n s, depth => by
    rw [Node.placed, List.forall_mem_cons]
    exact ⟨fun h => (allowed_of_check h).elim, fun h => h.1.2.elim⟩
  | .subscript n i, depth => by
    rw [Node.placed, List.forall_mem_cons]
    exact ⟨fun h => (allowed_of_check h).elim, fun h => h.1.2.elim⟩
  | .list ns, depth => by
    rw [Node.placed, List.forall_mem_cons]
    exact ⟨fun h => (allowed_of_check h).elim, fun h => h.1.2.elim⟩

theorem checkList_iff : ∀ (ns : List Node) (depth : ℕ),
    checkList depth ns = .ok () ↔ ∀ p ∈ placedList depth ns, Admitted p
  | [], depth => by
    rw [placedList, checkList]
    exact ⟨fun _ p hp => absurd hp List.not_mem_nil, fun _ => rfl⟩
  | n :: ns, depth => by
    rw [placedList, List.forall_mem_append, ← check_iff n, ← checkList_iff ns,
      checkList_cons_iff]

theorem checkKeywords_iff : ∀ (ns : List (String × Node)) (depth : ℕ),
    checkKeywords depth ns = .ok () ↔ ∀ p ∈ placedKeywords depth ns, Admitted p
  | [], depth => by
    rw [placedKeywords, checkKeywords]
    exact ⟨fun _ p hp => absurd hp List.not_mem_nil, fun _ => rfl⟩
  | (k, n) :: ns, depth => by
    rw [placedKeywords, List.forall_mem_append, ← check_iff n, ← checkKeywords_iff ns,
      checkKeywords_cons_iff]

theorem checkLinks_iff : ∀ (ns : List (Comparison × Node)) (depth : ℕ),
    checkLinks depth ns = .ok () ↔ ∀ p ∈ placedLinks depth ns, Admitted p
  | [], depth => by
    rw [placedLinks, checkLinks]
    exact ⟨fun _ p hp => absurd hp List.not_mem_nil, fun _ => rfl⟩
  | (op, n) :: ns, depth => by
    rw [placedLinks, List.forall_mem_append, ← check_iff n, ← checkLinks_iff ns,
      checkLinks_cons_iff]

end

/-! ## Accepting a text -/

theorem trimLeft_eq_nil_iff {cs : List Char} :
    Text.trimLeft cs = [] ↔ ∀ c ∈ cs, Text.isBlank c = true :=
  List.dropWhile_eq_nil_iff

/-- Nothing is left of a text without its blanks when it has nothing else. -/
theorem trim_isEmpty_iff {text : String} :
    (Text.trim text).isEmpty = true ↔ ∀ c ∈ text.toList, Text.isBlank c = true := by
  have hleft : (∀ c ∈ Text.trimLeft text.toList, Text.isBlank c = true) ↔
      Text.trimLeft text.toList = [] := by
    rw [← List.dropWhile_eq_nil_iff, Text.trimLeft, List.dropWhile_idempotent]
  unfold Text.trim Text.trimChars Text.trimRight
  rw [String.isEmpty_iff, String.ofList_eq_empty_iff, List.reverse_eq_nil_iff,
    List.dropWhile_eq_nil_iff]
  simp only [List.mem_reverse]
  exact hleft.trans trimLeft_eq_nil_iff

theorem forbiddenWord?_eq_none_iff {text : String} : forbiddenWord? text = none ↔
    ∀ w ∈ forbidden, ¬ w.toList <:+: (Text.lower text).toList := by
  unfold forbiddenWord?
  rw [List.find?_eq_none]
  exact forall₂_congr fun w _ => not_congr Text.occursIn_iff

/-- **What it takes for a text to be accepted.** -/
theorem accept_ok_iff {text : String} {n : Node} : accept text = .ok n ↔
    (∃ c ∈ text.toList, Text.isBlank c = false) ∧
      (∀ w ∈ forbidden, ¬ w.toList <:+: (Text.lower text).toList) ∧
      parse text = .ok n ∧ ∀ p ∈ n.placed 0, Admitted p := by
  rw [← forbiddenWord?_eq_none_iff, ← check_iff]
  unfold accept
  by_cases hblank : (Text.trim text).isEmpty = true
  · rw [if_pos hblank]
    refine ⟨fun h => (by cases h), fun ⟨⟨c, hc, hb⟩, _⟩ => ?_⟩
    rw [trim_isEmpty_iff.mp hblank c hc] at hb
    cases hb
  · rw [if_neg hblank]
    have hvisible : ∃ c ∈ text.toList, Text.isBlank c = false := by
      rw [trim_isEmpty_iff] at hblank
      push Not at hblank
      obtain ⟨c, hc, hb⟩ := hblank
      exact ⟨c, hc, Bool.eq_false_iff.mpr hb⟩
    rcases forbiddenWord? text with _ | word
    · rcases parse text with e | m
      · refine ⟨fun h => ?_, fun ⟨_, _, h, _⟩ => (by cases h)⟩
        dsimp only at h
        split at h <;> cases h
      · dsimp only
        constructor
        · intro h
          split at h
          · cases h
          · next hc =>
            cases h
            exact ⟨hvisible, rfl, rfl, hc⟩
        · rintro ⟨-, -, hm, hc⟩
          cases hm
          rw [hc]
    · exact ⟨fun h => (by cases h), fun ⟨_, h, _⟩ => (by cases h)⟩

/-! ## Resolved trees -/

mutual

/-- The tree that a formula was resolved from. -/
def Formula.node : Formula → Node
  | .number x => .number x
  | .current v | .series v => .name v.name
  | .binary op left right => .binary op left.node right.node
  | .signed sign operand => .signed sign operand.node
  | .call f args keywords => .call (.name f.name) (nodesOf args) (keywordNodes keywords)
  | .compare first links => .compare first.node (linkNodes links)

def nodesOf : List Formula → List Node
  | [] => []
  | e :: es => e.node :: nodesOf es

def keywordNodes : List (String × Formula) → List (String × Node)
  | [] => []
  | (k, e) :: es => (k, e.node) :: keywordNodes es

def linkNodes : List (Comparison × Formula) → List (Comparison × Node)
  | [] => []
  | (op, e) :: es => (op, e.node) :: linkNodes es

end

mutual

/-- Series stand for the bare names among positional arguments and nowhere else, and nothing is
divided with rounding. -/
def Formula.WellPlaced : Formula → Prop
  | .number _ | .current _ => True
  | .series _ => False
  | .binary op left right => op ≠ .floorDiv ∧ left.WellPlaced ∧ right.WellPlaced
  | .signed _ operand => operand.WellPlaced
  | .call _ args keywords => WellPlacedArguments args ∧ WellPlacedKeywords keywords
  | .compare first links => first.WellPlaced ∧ WellPlacedLinks links

/-- Positional arguments: no bare name is left that is not a series. -/
def WellPlacedArguments : List Formula → Prop
  | [] => True
  | .series _ :: es => WellPlacedArguments es
  | .current _ :: _ => False
  | e :: es => e.WellPlaced ∧ WellPlacedArguments es

def WellPlacedKeywords : List (String × Formula) → Prop
  | [] => True
  | (_, e) :: es => e.WellPlaced ∧ WellPlacedKeywords es

def WellPlacedLinks : List (Comparison × Formula) → Prop
  | [] => True
  | (_, e) :: es => e.WellPlaced ∧ WellPlacedLinks es

end

theorem variableOf_ok_iff {s : String} {v : Variable} : variableOf s = .ok v ↔ s = v.name := by
  rw [← Variable.ofName?_eq_some_iff]
  unfold variableOf
  rcases Variable.ofName? s with _ | w
  · exact ⟨fun h => (by cases h), fun h => (by cases h)⟩
  · exact ⟨fun h => (by cases h; rfl), fun h => (by cases h; rfl)⟩

/-- An argument that is no bare name is placed like any other formula. -/
theorem wellPlacedArguments_cons {e : Formula} {es : List Formula} {n : Node} (he : e.node = n)
    (hn : ∀ s, n ≠ .name s) (hw : e.WellPlaced) (hes : WellPlacedArguments es) :
    WellPlacedArguments (e :: es) := by
  cases e
  case current v => exact (hn _ he.symm).elim
  case series v => exact (hn _ he.symm).elim
  all_goals exact ⟨hw, hes⟩

mutual

/-- **Resolving keeps the tree, and puts series where they belong.** -/
theorem resolve_spec : ∀ (n : Node) {depth : ℕ} {e : Formula}, check depth n = .ok () →
    resolve n = .ok e → e.node = n ∧ e.WellPlaced
  | .number x, _, e, _, he => by
    rw [resolve] at he
    cases he
    exact ⟨rfl, trivial⟩
  | .text t, _, e, h, _ => (allowed_of_check h).elim
  | .name s, _, e, _, he => by
    rw [resolve, bind_ok_iff] at he
    obtain ⟨v, hv, he⟩ := he
    cases he
    exact ⟨congrArg Node.name (variableOf_ok_iff.mp hv).symm, trivial⟩
  | .binary op l r, _, e, h, he => by
    obtain ⟨-, hop, hl, hr⟩ := check_binary_iff.mp h
    rw [resolve, bind_ok_iff] at he
    obtain ⟨el, hel, he⟩ := he
    obtain ⟨er, her, he⟩ := bind_ok_iff.mp he
    cases he
    obtain ⟨hln, hlw⟩ := resolve_spec l hl hel
    obtain ⟨hrn, hrw⟩ := resolve_spec r hr her
    refine ⟨?_, allowed_eq_true_iff.mp hop, hlw, hrw⟩
    rw [Formula.node, hln, hrn]
  | .signed s n, _, e, h, he => by
    obtain ⟨-, hn⟩ := check_signed_iff.mp h
    rw [resolve, bind_ok_iff] at he
    obtain ⟨e', he', he⟩ := he
    cases he
    obtain ⟨hnode, hw⟩ := resolve_spec n hn he'
    exact ⟨by rw [Formula.node, hnode], hw⟩
  | .call callee args keywords, _, e, h, he => by
    obtain ⟨-, ⟨s, f, rfl, hf⟩, ha, hk⟩ := check_call_iff.mp h
    rw [resolve, hf] at he
    obtain ⟨as, has, he⟩ := bind_ok_iff.mp he
    obtain ⟨ks, hks, he⟩ := bind_ok_iff.mp he
    cases he
    obtain ⟨han, haw⟩ := resolveArguments_spec args ha has
    obtain ⟨hkn, hkw⟩ := resolveKeywords_spec keywords hk hks
    refine ⟨?_, haw, hkw⟩
    rw [Formula.node, han, hkn, ← Function.ofName?_eq_some_iff.mp hf]
  | .compare first links, _, e, h, he => by
    obtain ⟨-, hf, hl⟩ := check_compare_iff.mp h
    rw [resolve, bind_ok_iff] at he
    obtain ⟨e', he', he⟩ := he
    obtain ⟨ls, hls, he⟩ := bind_ok_iff.mp he
    cases he
    obtain ⟨hfn, hfw⟩ := resolve_spec first hf he'
    obtain ⟨hln, hlw⟩ := resolveLinks_spec links hl hls
    refine ⟨?_, hfw, hlw⟩
    rw [Formula.node, hfn, hln]
  | .member n s, _, e, h, _ => (allowed_of_check h).elim
  | .subscript n i, _, e, h, _ => (allowed_of_check h).elim
  | .list ns, _, e, h, _ => (allowed_of_check h).elim

theorem resolveArguments_spec : ∀ (ns : List Node) {depth : ℕ} {es : List Formula},
    checkList depth ns = .ok () → resolveArguments ns = .ok es →
      nodesOf es = ns ∧ WellPlacedArguments es
  | [], _, es, _, hes => by
    rw [resolveArguments] at hes
    cases hes
    exact ⟨rfl, trivial⟩
  | n :: ns, _, es, h, hes => by
    obtain ⟨hn, hns⟩ := checkList_cons_iff.mp h
    -- only a bare name becomes a series, so it is not resolved like other nodes
    by_cases hname : ∃ s, n = .name s
    · obtain ⟨s, rfl⟩ := hname
      rw [resolveArguments, bind_ok_iff] at hes
      obtain ⟨v, hv, hes⟩ := hes
      obtain ⟨rest, hrest, hes⟩ := bind_ok_iff.mp hes
      cases hes
      obtain ⟨hnodes, hw⟩ := resolveArguments_spec ns hns hrest
      refine ⟨?_, hw⟩
      rw [nodesOf, hnodes, Formula.node, ← variableOf_ok_iff.mp hv]
    · have hne : ∀ s, n ≠ .name s := fun s hs => hname ⟨s, hs⟩
      rw [resolveArguments, bind_ok_iff] at hes
      · obtain ⟨e, he, hes⟩ := hes
        obtain ⟨rest, hrest, hes⟩ := bind_ok_iff.mp hes
        cases hes
        obtain ⟨hnode, hw⟩ := resolve_spec n hn he
        obtain ⟨hnodes, hws⟩ := resolveArguments_spec ns hns hrest
        exact ⟨by rw [nodesOf, hnode, hnodes], wellPlacedArguments_cons hnode hne hw hws⟩
      · exact hne

theorem resolveKeywords_spec : ∀ (ns : List (String × Node)) {depth : ℕ}
    {es : List (String × Formula)}, checkKeywords depth ns = .ok () →
      resolveKeywords ns = .ok es → keywordNodes es = ns ∧ WellPlacedKeywords es
  | [], _, es, _, hes => by
    rw [resolveKeywords] at hes
    cases hes
    exact ⟨rfl, trivial⟩
  | (k, n) :: ns, _, es, h, hes => by
    obtain ⟨hn, hns⟩ := checkKeywords_cons_iff.mp h
    rw [resolveKeywords, bind_ok_iff] at hes
    obtain ⟨e, he, hes⟩ := hes
    obtain ⟨rest, hrest, hes⟩ := bind_ok_iff.mp hes
    cases hes
    obtain ⟨hnode, hw⟩ := resolve_spec n hn he
    obtain ⟨hnodes, hws⟩ := resolveKeywords_spec ns hns hrest
    exact ⟨by rw [keywordNodes, hnode, hnodes], hw, hws⟩

theorem resolveLinks_spec : ∀ (ns : List (Comparison × Node)) {depth : ℕ}
    {es : List (Comparison × Formula)}, checkLinks depth ns = .ok () →
      resolveLinks ns = .ok es → linkNodes es = ns ∧ WellPlacedLinks es
  | [], _, es, _, hes => by
    rw [resolveLinks] at hes
    cases hes
    exact ⟨rfl, trivial⟩
  | (op, n) :: ns, _, es, h, hes => by
    obtain ⟨hn, hns⟩ := checkLinks_cons_iff.mp h
    rw [resolveLinks, bind_ok_iff] at hes
    obtain ⟨e, he, hes⟩ := hes
    obtain ⟨rest, hrest, hes⟩ := bind_ok_iff.mp hes
    cases hes
    obtain ⟨hnode, hw⟩ := resolve_spec n hn he
    obtain ⟨hnodes, hws⟩ := resolveLinks_spec ns hns hrest
    exact ⟨by rw [linkNodes, hnode, hnodes], hw, hws⟩

end

/-! ## Evaluation with open answers -/

/-- What evaluation makes of a series in the place of a number, and of a floor division. -/
structure Answers where
  series : Variable → Except Fault (Option Float)
  floorDivision : Float → Float → Except Fault Float

/-- The answers that evaluation has. -/
def Answers.given (values : Values Float) : Answers where
  series v := .ok (some (values.get v))
  floorDivision _ _ := .error (.misuse .floorDivision)

/-- The value of an arithmetic operation, with an open answer for floor division. -/
def operateWith (answers : Answers) (op : Operator) (x y : Float) : Except Fault Float :=
  match op with
  | .floorDiv => answers.floorDivision x y
  | _ => operate op x y

section

variable (answers : Answers) (values : Values Float) (history : History Float)

mutual

/-- The value of a formula, with open answers. -/
def evalWith : Formula → Except Fault (Option Float)
  | .number x => .ok (some x)
  | .current v => .ok (some (values.get v))
  | .series v => answers.series v
  | .signed sign operand => do return (← evalWith operand).map (signedValue sign)
  | .binary op left right => do
    let x ← evalWith left
    let y ← evalWith right
    match x, y with
    | some x, some y => return some (← operateWith answers op x y)
    | _, _ => return none
  | .call f args keywords => do
    let args ← evalArgumentsWith args
    let keywords ← evalKeywordsWith keywords
    Indicator.call f args keywords history
  | .compare first links => do
    match ← evalWith first with
    | none => return none
    | some x => evalLinksWith x links

def evalArgumentsWith : List Formula → Except Fault (List Argument)
  | [] => .ok []
  | .series v :: es => do
    return .series v (values.get v) :: (← evalArgumentsWith es)
  | e :: es => do
    let x ← evalWith e
    return .scalar x :: (← evalArgumentsWith es)

def evalKeywordsWith : List (String × Formula) → Except Fault (List (String × Argument))
  | [] => .ok []
  | (k, .series v) :: es => do
    return (k, .series v (values.get v)) :: (← evalKeywordsWith es)
  | (k, e) :: es => do
    let x ← evalWith e
    return (k, .scalar x) :: (← evalKeywordsWith es)

def evalLinksWith (x : Float) : List (Comparison × Formula) → Except Fault (Option Float)
  | [] => .ok (some 1)
  | (op, e) :: es => do
    match ← evalWith e with
    | none => return none
    | some y => if op.holds x y then evalLinksWith y es else return some 0

end

/-- The answer for floor division is not asked for by another operation, and the given one is that
of `operate`. -/
theorem operateWith_eq {op : Operator} (h : answers = .given values ∨ op ≠ .floorDiv)
    (x y : Float) : operateWith answers op x y = operate op x y := by
  rcases h with rfl | hop
  · cases op <;> rfl
  · cases op
    case floorDiv => exact absurd rfl hop
    all_goals rfl

mutual

/-- Evaluation with open answers is evaluation if the answers are the given ones, and also if they
are never asked for. -/
theorem evalWith_eq : ∀ e : Formula, (answers = .given values ∨ e.WellPlaced) →
    evalWith answers values history e = eval values history e
  | .number x, _ => by rw [evalWith, eval]
  | .current v, _ => by rw [evalWith, eval]
  | .series v, h => by
    obtain rfl := h.resolve_right id
    rw [evalWith, eval]
    rfl
  | .signed s e, h => by rw [evalWith, eval, evalWith_eq e h]
  | .binary op l r, h => by
    rw [evalWith, eval, evalWith_eq l (h.imp_right fun hw => hw.2.1),
      evalWith_eq r (h.imp_right fun hw => hw.2.2)]
    refine bind_congr fun x => bind_congr fun y => ?_
    obtain _ | x := x
    · rfl
    obtain _ | y := y
    · rfl
    · exact congrArg (· >>= fun z => pure (some z))
        (operateWith_eq answers values (h.imp_right And.left) x y)
  | .call f args keywords, h => by
    rw [evalWith, eval, evalArgumentsWith_eq args (h.imp_right And.left),
      evalKeywordsWith_eq keywords (h.imp_right And.right)]
  | .compare first links, h => by
    rw [evalWith, eval, evalWith_eq first (h.imp_right And.left)]
    refine bind_congr fun x => ?_
    obtain _ | x := x
    · rfl
    · exact evalLinksWith_eq x links (h.imp_right And.right)

theorem evalArgumentsWith_eq : ∀ es : List Formula,
    (answers = .given values ∨ WellPlacedArguments es) →
      evalArgumentsWith answers values history es = evalArguments values history es
  | [], _ => by rw [evalArgumentsWith, evalArguments]
  | .series v :: es, h => by
    rw [evalArgumentsWith, evalArguments, evalArgumentsWith_eq es h]
  | .current v :: es, h => by
    rw [evalArgumentsWith, evalArguments, evalWith_eq (.current v) (h.imp_right False.elim),
      evalArgumentsWith_eq es (h.imp_right False.elim)]
    · exact fun _ he => (by cases he)
    · exact fun _ he => (by cases he)
  | .number _ :: es, h | .signed _ _ :: es, h | .binary _ _ _ :: es, h | .call _ _ _ :: es, h
  | .compare _ _ :: es, h => by
    rw [evalArgumentsWith, evalArguments, evalWith_eq _ (h.imp_right And.left),
      evalArgumentsWith_eq es (h.imp_right And.right)]
    · exact fun _ he => (by cases he)
    · exact fun _ he => (by cases he)

theorem evalKeywordsWith_eq : ∀ es : List (String × Formula),
    (answers = .given values ∨ WellPlacedKeywords es) →
      evalKeywordsWith answers values history es = evalKeywords values history es
  | [], _ => by rw [evalKeywordsWith, evalKeywords]
  | (k, .series v) :: es, h => by
    rw [evalKeywordsWith, evalKeywords, evalKeywordsWith_eq es (h.imp_right And.right)]
  | (_, .number _) :: es, h | (_, .current _) :: es, h | (_, .signed _ _) :: es, h
  | (_, .binary _ _ _) :: es, h | (_, .call _ _ _) :: es, h | (_, .compare _ _) :: es, h => by
    rw [evalKeywordsWith, evalKeywords, evalWith_eq _ (h.imp_right And.left),
      evalKeywordsWith_eq es (h.imp_right And.right)]
    · exact fun _ he => (by cases he)
    · exact fun _ he => (by cases he)

theorem evalLinksWith_eq : ∀ (x : Float) (es : List (Comparison × Formula)),
    (answers = .given values ∨ WellPlacedLinks es) →
      evalLinksWith answers values history x es = evalLinks values history x es
  | x, [], _ => by rw [evalLinksWith, evalLinks]
  | x, (op, e) :: es, h => by
    rw [evalLinksWith, evalLinks, evalWith_eq e (h.imp_right And.left)]
    refine bind_congr fun y => ?_
    obtain _ | y := y
    · rfl
    · exact congrArg (fun r => if op.holds x y then r else pure (some 0))
        (evalLinksWith_eq y es (h.imp_right And.right))

end

/-- **Evaluation with the given answers is evaluation.** -/
theorem evalWith_given (e : Formula) :
    evalWith (.given values) values history e = eval values history e :=
  evalWith_eq _ values history e (.inl rfl)

end

/-! ## Validating and compiling -/

theorem validate_of_accept {text : String} {n : Node} (h : accept text = .ok n) :
    validate text = ⟨true, none, none⟩ := by
  unfold validate
  rw [h]

theorem validate_of_reject {text : String} {r : Rejection} (h : accept text = .error r) :
    validate text = ⟨false, some r.refusal.message, r.suggestion.map (·.message)⟩ := by
  unfold validate
  rw [h]

theorem validate_ok_iff {text : String} :
    (validate text).ok = true ↔ ∃ n, accept text = .ok n := by
  rcases h : accept text with r | n
  · rw [validate_of_reject h]
    exact ⟨fun h => (Bool.false_ne_true h).elim, fun ⟨_, h⟩ => (by cases h)⟩
  · rw [validate_of_accept h]
    exact ⟨fun _ => ⟨n, rfl⟩, fun _ => rfl⟩

/-- A compiled text is in the sandbox: its formula is the tree of the text with names resolved, with
series where they belong, and evaluation never asks for the value of a series or a floor
division. -/
structure Sandboxed (text : String) (c : Compiled) : Prop where
  source : c.source = text
  tree : parse text = .ok c.formula.node
  placed : c.formula.WellPlaced
  eval_eq : ∀ (answers : Answers) (values : Values Float) (history : History Float),
    evalWith answers values history c.formula = eval values history c.formula

/-- What is accepted compiles to something in the sandbox. -/
theorem sandboxed_of_accept {text : String} {n : Node} (h : accept text = .ok n) :
    ∃ c, compile text = .ok c ∧ Sandboxed text c := by
  obtain ⟨e, he, hc⟩ := compile_of_accept h
  obtain ⟨hnode, hplaced⟩ := resolve_spec n (check_of_accept h) he
  obtain ⟨-, -, hparse, -⟩ := accept_ok_iff.mp h
  exact ⟨_, hc, rfl, hnode ▸ hparse, hplaced,
    fun answers values history => evalWith_eq answers values history e (.inr hplaced)⟩

/-- **Validation and compilation agree, and what they let through is in the sandbox.** -/
theorem validated_is_sandboxed (text : String) :
    ((∃ c, compile text = .ok c ∧ validate text = ⟨true, none, none⟩ ∧ Sandboxed text c) ∨
      ∃ r, compile text = .error r ∧
        validate text = ⟨false, some r.refusal.message, r.suggestion.map (·.message)⟩) ∧
    ((validate text).ok = true ↔
      (∃ c ∈ text.toList, Text.isBlank c = false) ∧
      (∀ w ∈ forbidden, ¬ w.toList <:+: (Text.lower text).toList) ∧
      ∃ n, parse text = .ok n ∧ ∀ p ∈ n.placed 0, Admitted p) := by
  constructor
  · rcases h : accept text with r | n
    · exact .inr ⟨r, compile_of_reject h, validate_of_reject h⟩
    · obtain ⟨c, hc, hs⟩ := sandboxed_of_accept h
      exact .inl ⟨c, hc, validate_of_accept h, hs⟩
  · rw [validate_ok_iff]
    constructor
    · rintro ⟨n, hn⟩
      obtain ⟨hvisible, hwords, hparse, hplaced⟩ := accept_ok_iff.mp hn
      exact ⟨hvisible, hwords, n, hparse, hplaced⟩
    · rintro ⟨hvisible, hwords, n, hparse, hplaced⟩
      exact ⟨n, accept_ok_iff.mpr ⟨hvisible, hwords, hparse, hplaced⟩⟩

end TickBacktest.Expression
