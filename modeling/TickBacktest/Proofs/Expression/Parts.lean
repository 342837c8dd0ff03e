import TickBacktest.Expression.Requirements
import TickBacktest.Proofs.Expression.Sandbox

/-! # The parts of a formula

A formula and all formulas below it, in the order of the nodes of the tree that it was resolved from
(`nodes_filterMap`). What is estimated from the text is therefore told by the parts of what the text
compiles to (`requirements_of_compile`): the variables and the functions in use, and the windows of
the calls. -/

namespace TickBacktest.Expression

open Indicator (Function)
open Market (Variable)

namespace Formula

/-- Induction on formulas, where the arguments of a call and the links of a chain are taken all at
once. -/
@[elab_as_elim]
theorem induction {motive : Formula → Prop} (number : ∀ x, motive (.number x))
    (current : ∀ v, motive (.current v)) (series : ∀ v, motive (.series v))
    (binary : ∀ op left right, motive left → motive right → motive (.binary op left right))
    (signed : ∀ sign operand, motive operand → motive (.signed sign operand))
    (call : ∀ f args keywords, (∀ e ∈ args, motive e) → (∀ k ∈ keywords, motive k.2) →
      motive (.call f args keywords))
    (compare : ∀ first links, motive first → (∀ l ∈ links, motive l.2) →
      motive (.compare first links)) (e : Formula) : motive e :=
  @Formula.rec motive (fun es => ∀ e ∈ es, motive e) (fun ks => ∀ k ∈ ks, motive k.2)
    (fun ls => ∀ l ∈ ls, motive l.2) (fun k => motive k.2) (fun l => motive l.2)
    number current series binary signed call compare
    (fun _ h => absurd h List.not_mem_nil) (fun _ _ he hes => List.forall_mem_cons.mpr ⟨he, hes⟩)
    (fun _ h => absurd h List.not_mem_nil) (fun _ _ hk hks => List.forall_mem_cons.mpr ⟨hk, hks⟩)
    (fun _ h => absurd h List.not_mem_nil) (fun _ _ hl hls => List.forall_mem_cons.mpr ⟨hl, hls⟩)
    (fun _ _ h => h) (fun _ _ h => h) e

mutual

/-- The formula and all formulas below it. -/
def parts : Formula → List Formula
  | e@(.number _) | e@(.current _) | e@(.series _) => [e]
  | e@(.binary _ left right) => e :: (left.parts ++ right.parts)
  | e@(.signed _ operand) => e :: operand.parts
  | e@(.call _ args keywords) => e :: (partsOfList args ++ partsOfKeywords keywords)
  | e@(.compare first links) => e :: (first.parts ++ partsOfLinks links)

def partsOfList : List Formula → List Formula
  | [] => []
  | e :: es => e.parts ++ partsOfList es

def partsOfKeywords : List (String × Formula) → List Formula
  | [] => []
  | (_, e) :: es => e.parts ++ partsOfKeywords es

def partsOfLinks : List (Comparison × Formula) → List Formula
  | [] => []
  | (_, e) :: es => e.parts ++ partsOfLinks es

end

theorem partsOfList_eq (es : List Formula) : partsOfList es = es.flatMap parts := by
  induction es with
  | nil => rfl
  | cons e es ih => rw [partsOfList, ih, List.flatMap_cons]

theorem partsOfKeywords_eq (ks : List (String × Formula)) :
    partsOfKeywords ks = ks.flatMap fun k => k.2.parts := by
  induction ks with
  | nil => rfl
  | cons k ks ih => rw [partsOfKeywords, ih, List.flatMap_cons]

theorem partsOfLinks_eq (ls : List (Comparison × Formula)) :
    partsOfLinks ls = ls.flatMap fun l => l.2.parts := by
  induction ls with
  | nil => rfl
  | cons l ls ih => rw [partsOfLinks, ih, List.flatMap_cons]

theorem self_mem_parts (e : Formula) : e ∈ e.parts := by
  cases e
  all_goals
    rw [parts]
    exact List.mem_cons_self

section

variable {f : Function} {args : List Formula} {keywords : List (String × Formula)}
  {first : Formula} {links : List (Comparison × Formula)}

theorem parts_subset_binary_left (op : Operator) (left right : Formula) :
    left.parts ⊆ (binary op left right).parts := by
  intro d hd
  change d ∈ binary op left right :: (left.parts ++ right.parts)
  exact .tail _ (List.mem_append_left _ hd)

theorem parts_subset_binary_right (op : Operator) (left right : Formula) :
    right.parts ⊆ (binary op left right).parts := by
  intro d hd
  change d ∈ binary op left right :: (left.parts ++ right.parts)
  exact .tail _ (List.mem_append_right _ hd)

theorem parts_subset_signed (sign : Sign) (operand : Formula) :
    operand.parts ⊆ (signed sign operand).parts := by
  intro d hd
  change d ∈ signed sign operand :: operand.parts
  exact .tail _ hd

theorem parts_subset_compare_first (first : Formula) (links : List (Comparison × Formula)) :
    first.parts ⊆ (compare first links).parts := by
  intro d hd
  change d ∈ compare first links :: (first.parts ++ partsOfLinks links)
  exact .tail _ (List.mem_append_left _ hd)

theorem parts_subset_call_of_mem {e : Formula} (h : e ∈ args) :
    e.parts ⊆ (call f args keywords).parts := by
  intro d hd
  change d ∈ call f args keywords :: (partsOfList args ++ partsOfKeywords keywords)
  rw [partsOfList_eq]
  exact .tail _ (List.mem_append_left _ (List.mem_flatMap.mpr ⟨e, h, hd⟩))

theorem parts_subset_call_of_keyword {k : String × Formula} (h : k ∈ keywords) :
    k.2.parts ⊆ (call f args keywords).parts := by
  intro d hd
  change d ∈ call f args keywords :: (partsOfList args ++ partsOfKeywords keywords)
  rw [partsOfKeywords_eq]
  exact .tail _ (List.mem_append_right _ (List.mem_flatMap.mpr ⟨k, h, hd⟩))

theorem parts_subset_compare_of_mem {l : Comparison × Formula} (h : l ∈ links) :
    l.2.parts ⊆ (compare first links).parts := by
  intro d hd
  change d ∈ compare first links :: (first.parts ++ partsOfLinks links)
  rw [partsOfLinks_eq]
  exact .tail _ (List.mem_append_right _ (List.mem_flatMap.mpr ⟨l, h, hd⟩))

end

end Formula

/-! ## Nodes -/

theorem nodesOf_eq (es : List Formula) : nodesOf es = es.map Formula.node := by
  induction es with
  | nil => rfl
  | cons e es ih => rw [nodesOf, ih, List.map_cons]

theorem keywordNodes_eq (ks : List (String × Formula)) :
    keywordNodes ks = ks.map fun k => (k.1, k.2.node) := by
  induction ks with
  | nil => rfl
  | cons k ks ih => rw [keywordNodes, ih, List.map_cons]

theorem linkNodes_eq (ls : List (Comparison × Formula)) :
    linkNodes ls = ls.map fun l => (l.1, l.2.node) := by
  induction ls with
  | nil => rfl
  | cons l ls ih => rw [linkNodes, ih, List.map_cons]

theorem Node.nodesOfList_eq (ns : List Node) : nodesOfList ns = ns.flatMap nodes := by
  induction ns with
  | nil => rfl
  | cons n ns ih => rw [nodesOfList, ih, List.flatMap_cons]

theorem Node.nodesOfKeywords_eq (ns : List (String × Node)) :
    nodesOfKeywords ns = ns.flatMap fun k => k.2.nodes := by
  induction ns with
  | nil => rfl
  | cons n ns ih => rw [nodesOfKeywords, ih, List.flatMap_cons]

theorem Node.nodesOfLinks_eq (ns : List (Comparison × Node)) :
    nodesOfLinks ns = ns.flatMap fun l => l.2.nodes := by
  induction ns with
  | nil => rfl
  | cons n ns ih => rw [nodesOfLinks, ih, List.flatMap_cons]

/-- **The nodes of a resolved tree are its parts**, but for the callees, which are names of
functions. -/
theorem nodes_filterMap {β : Type} {g : Node → Option β}
    (hg : ∀ f : Function, g (.name f.name) = none) (e : Formula) :
    e.node.nodes.filterMap g = e.parts.filterMap fun d => g d.node := by
  induction e using Formula.induction with
  | number x => rfl
  | current v => rfl
  | series v => rfl
  | binary op left right hl hr =>
    rw [Formula.node, Node.nodes, Formula.parts, List.filterMap_cons, List.filterMap_cons,
      List.filterMap_append, List.filterMap_append, hl, hr, Formula.node]
  | signed sign operand h =>
    rw [Formula.node, Node.nodes, Formula.parts, List.filterMap_cons, List.filterMap_cons, h,
      Formula.node]
  | call f args keywords ha hk =>
    have hcallee : (Node.name f.name).nodes.filterMap g = [] := by
      rw [Node.nodes, List.filterMap_cons, hg, List.filterMap_nil]
    have hargs : (Node.nodesOfList (nodesOf args)).filterMap g =
        (Formula.partsOfList args).filterMap fun d => g d.node := by
      rw [Node.nodesOfList_eq, nodesOf_eq, Formula.partsOfList_eq, List.flatMap_map,
        List.filterMap_flatMap, List.filterMap_flatMap]
      exact List.flatMap_congr ha
    have hkeywords : (Node.nodesOfKeywords (keywordNodes keywords)).filterMap g =
        (Formula.partsOfKeywords keywords).filterMap fun d => g d.node := by
      rw [Node.nodesOfKeywords_eq, keywordNodes_eq, Formula.partsOfKeywords_eq, List.flatMap_map,
        List.filterMap_flatMap, List.filterMap_flatMap]
      exact List.flatMap_congr hk
    rw [Formula.node, Node.nodes, Formula.parts, List.filterMap_cons, List.filterMap_cons,
      List.filterMap_append, List.filterMap_append, List.filterMap_append, hcallee, hargs,
      hkeywords, List.nil_append, Formula.node]
  | compare first links hf hl =>
    have hlinks : (Node.nodesOfLinks (linkNodes links)).filterMap g =
        (Formula.partsOfLinks links).filterMap fun d => g d.node := by
      rw [Node.nodesOfLinks_eq, linkNodes_eq, Formula.partsOfLinks_eq, List.flatMap_map,
        List.filterMap_flatMap, List.filterMap_flatMap]
      exact List.flatMap_congr hl
    rw [Formula.node, Node.nodes, Formula.parts, List.filterMap_cons, List.filterMap_cons,
      List.filterMap_append, List.filterMap_append, hf, hlinks, Formula.node]

/-! ## What a text needs -/

namespace Formula

/-- The variable that a formula is. -/
def named? : Formula → Option Variable
  | .current v | .series v => some v
  | _ => none

/-- The function that a formula calls, and the arguments of the call. -/
def call? : Formula → Option (Function × List Formula × List (String × Formula))
  | .call f args keywords => some (f, args, keywords)
  | _ => none

/-- The function that a formula calls, with the window of the call as it is estimated. -/
def called? : Formula → Option (Function × Option ℕ)
  | .call f args keywords => some (f, callWindow? f (nodesOf args) (keywordNodes keywords))
  | _ => none

theorem named?_eq_some_iff {e : Formula} {v : Variable} :
    e.named? = some v ↔ e = .current v ∨ e = .series v := by
  cases e <;> simp [named?, eq_comm]

theorem call?_eq_some_iff {e : Formula}
    {c : Function × List Formula × List (String × Formula)} :
    e.call? = some c ↔ e = .call c.1 c.2.1 c.2.2 := by
  cases e
  case call f args keywords => exact ⟨fun h => (by cases h; rfl), fun h => (by cases h; rfl)⟩
  all_goals exact ⟨fun h => (by cases h), fun h => (by cases h)⟩

theorem called?_eq_some_iff {e : Formula} {f : Function} {w : Option ℕ} :
    e.called? = some (f, w) ↔ ∃ args keywords, e = .call f args keywords ∧
      callWindow? f (nodesOf args) (keywordNodes keywords) = w := by
  cases e
  case call g args keywords =>
    constructor
    · intro h
      cases h
      exact ⟨_, _, rfl, rfl⟩
    · rintro ⟨_, _, h, rfl⟩
      cases h
      rfl
  all_goals exact ⟨fun h => (by cases h), fun ⟨_, _, h, _⟩ => (by cases h)⟩

theorem variableNamed?_node (e : Formula) : variableNamed? e.node = e.named? := by
  cases e
  case current v | series v => exact Variable.ofName?_name v
  all_goals rfl

theorem calledFunction?_node (e : Formula) : calledFunction? e.node = e.called? := by
  cases e
  case call f args keywords =>
    rw [node, calledFunction?, Function.ofName?_name]
    rfl
  all_goals rfl

end Formula

/-- What compiles is in the sandbox. -/
theorem sandboxed_of_compile {text : String} {c : Compiled} (h : compile text = .ok c) :
    Sandboxed text c := by
  rcases ha : accept text with r | n
  · rw [compile_of_reject ha] at h
    cases h
  · obtain ⟨c', hc', hs⟩ := sandboxed_of_accept ha
    rw [h] at hc'
    cases hc'
    exact hs

/-- **What a text needs is told by the parts of its formula.** -/
theorem requirements_of_compile {text : String} {c : Compiled} (h : compile text = .ok c) :
    requirements text = .of ((c.formula.parts.filterMap Formula.called?).filterMap (·.2))
      (c.formula.parts.filterMap Formula.named?)
      ((c.formula.parts.filterMap Formula.called?).map (·.1)) := by
  have hvariable : ∀ f : Function, variableNamed? (.name f.name) = none := by
    intro f
    cases f <;> decide
  have hs := sandboxed_of_compile h
  unfold requirements
  rw [hs.tree]
  dsimp only
  rw [nodes_filterMap (fun _ => rfl), nodes_filterMap hvariable,
    funext Formula.calledFunction?_node, funext Formula.variableNamed?_node]

/-! ## Deciding what stands in a formula -/

instance {e : Formula} {p : Float → Prop} [DecidablePred p] :
    Decidable (∃ x, e = .number x ∧ p x) :=
  match e with
  | .number x =>
    decidable_of_iff (p x) ⟨fun h => ⟨x, rfl, h⟩, fun ⟨_, h, hp⟩ => (by cases h; exact hp)⟩
  | .current _ | .series _ | .binary _ _ _ | .signed _ _ | .call _ _ _ | .compare _ _ =>
    isFalse fun ⟨_, h, _⟩ => (by cases h)

instance {e : Formula} : Decidable (∃ x, e = .number x) :=
  decidable_of_iff (∃ x, e = .number x ∧ True)
    ⟨fun ⟨x, h, _⟩ => ⟨x, h⟩, fun ⟨x, h⟩ => ⟨x, h, trivial⟩⟩

instance {e : Formula} : Decidable (∃ v, e = .series v) :=
  match e with
  | .series v => isTrue ⟨v, rfl⟩
  | .number _ | .current _ | .binary _ _ _ | .signed _ _ | .call _ _ _ | .compare _ _ =>
    isFalse fun ⟨_, h⟩ => (by cases h)

instance {e : Formula} {p : Function → List Formula → List (String × Formula) → Prop}
    [∀ f args keywords, Decidable (p f args keywords)] :
    Decidable (∀ f args keywords, .call f args keywords ∈ e.parts → p f args keywords) :=
  decidable_of_iff (∀ d ∈ e.parts, ∀ c ∈ d.call?, p c.1 c.2.1 c.2.2) <| by
    constructor
    · exact fun h f args keywords hc => h _ hc _ rfl
    · intro h d hd c hc
      obtain rfl := Formula.call?_eq_some_iff.mp hc
      exact h _ _ _ hd

/-! ## Where series stand -/

theorem placed_of_mem_arguments {es : List Formula} (h : WellPlacedArguments es) {e : Formula}
    (he : e ∈ es) : (∃ v, e = .series v) ∨ e.WellPlaced := by
  induction es with
  | nil => exact absurd he List.not_mem_nil
  | cons d es ih =>
    by_cases hd : ∃ v, d = .series v
    · obtain ⟨v, rfl⟩ := hd
      rcases List.mem_cons.mp he with rfl | he
      · exact .inl ⟨v, rfl⟩
      · exact ih h he
    · have hplaced : d.WellPlaced ∧ WellPlacedArguments es := by
        cases d
        case series v => exact absurd ⟨v, rfl⟩ hd
        case current v => exact h.elim
        all_goals exact h
      rcases List.mem_cons.mp he with rfl | he
      · exact .inr hplaced.1
      · exact ih hplaced.2 he

theorem placed_of_mem_keywords {ks : List (String × Formula)} (h : WellPlacedKeywords ks)
    {k : String × Formula} (hk : k ∈ ks) : k.2.WellPlaced := by
  induction ks with
  | nil => exact absurd hk List.not_mem_nil
  | cons j ks ih =>
    rcases List.mem_cons.mp hk with rfl | hk
    · exact h.1
    · exact ih h.2 hk

theorem placed_of_mem_links {ls : List (Comparison × Formula)} (h : WellPlacedLinks ls)
    {l : Comparison × Formula} (hl : l ∈ ls) : l.2.WellPlaced := by
  induction ls with
  | nil => exact absurd hl List.not_mem_nil
  | cons j ls ih =>
    rcases List.mem_cons.mp hl with rfl | hl
    · exact h.1
    · exact ih h.2 hl

/-- **Every call in a formula that is well placed is**, and a series among its arguments stands for
a bare name. -/
theorem placed_call {e : Formula} (he : e.WellPlaced) {f : Function} {args : List Formula}
    {keywords : List (String × Formula)} (h : .call f args keywords ∈ e.parts) :
    WellPlacedArguments args ∧ WellPlacedKeywords keywords := by
  induction e using Formula.induction with
  | number x => rw [Formula.parts, List.mem_singleton] at h; cases h
  | current v => rw [Formula.parts, List.mem_singleton] at h; cases h
  | series v => exact he.elim
  | binary op left right hl hr =>
    rw [Formula.parts, List.mem_cons, List.mem_append] at h
    rcases h with h | h | h
    · cases h
    · exact hl he.2.1 h
    · exact hr he.2.2 h
  | signed sign operand ho =>
    rw [Formula.parts, List.mem_cons] at h
    rcases h with h | h
    · cases h
    · exact ho he h
  | call g as ks ha hk =>
    rw [Formula.parts, List.mem_cons, List.mem_append, Formula.partsOfList_eq,
      Formula.partsOfKeywords_eq, List.mem_flatMap, List.mem_flatMap] at h
    rcases h with h | ⟨d, hd, h⟩ | ⟨k, hks, h⟩
    · cases h
      exact he
    · rcases placed_of_mem_arguments he.1 hd with ⟨v, rfl⟩ | hplaced
      · rw [Formula.parts, List.mem_singleton] at h
        cases h
      · exact ha d hd hplaced h
    · exact hk k hks (placed_of_mem_keywords he.2 hks) h
  | compare first links hf hl =>
    rw [Formula.parts, List.mem_cons, List.mem_append, Formula.partsOfLinks_eq,
      List.mem_flatMap] at h
    rcases h with h | h | ⟨l, hls, h⟩
    · cases h
    · exact hf he.1 h
    · exact hl l hls (placed_of_mem_links he.2 hls) h

end TickBacktest.Expression
