import TickBacktest.Proofs.Expression.Completeness

/-! # The height of trees

The nesting budget keeps trees low only together with the length of the chains in them. Between two
levels a tree grows by a comparison, a sign or a power, and by three kinds of chains: sums,
products, and the calls, attributes and subscripts after an operand. Chains are read in loops, which
spend nothing, and group to the left, so that each operation of a chain makes the tree higher by
one.

With at most `k` operations in any chain a level adds no more than `3 * (k + 1)` to the height
(`Derives.low`), so a tree that is read is at most `3 * (k + 1) * maxNesting` high. No bound holds
for all trees: a sum of `n + 1` numbers is read whatever `n` is, and is `n` high (`parse_flatSum`,
`height_flatSum`). -/

namespace TickBacktest.Expression

/-! ## Chains in a tree -/

namespace Node

/-- The number of sums and differences that a tree starts with, along the left. -/
def sums : Node → ℕ
  | binary .add left _ | binary .sub left _ => left.sums + 1
  | _ => 0

/-- The number of products, quotients and remainders that a tree starts with, along the left. -/
def products : Node → ℕ
  | binary .mul left _ | binary .div left _ | binary .mod left _ | binary .floorDiv left _ =>
    left.products + 1
  | _ => 0

/-- The number of calls, attributes and subscripts that a tree starts with, along the left. -/
def suffixes : Node → ℕ
  | call callee _ _ => callee.suffixes + 1
  | member value _ => value.suffixes + 1
  | subscript value _ => value.suffixes + 1
  | _ => 0

/-- The number of operations in the longest of the three chains that a tree starts with. -/
def chain (n : Node) : ℕ := max n.sums (max n.products n.suffixes)

/-- The number of operations in the longest chain anywhere in a tree. -/
def longestChain (n : Node) : ℕ := (n.nodes.map chain).foldr max 0

end Node

/-- No chain in these trees has more than `k` operations. -/
def ChainsWithin (k : ℕ) (ns : List Node) : Prop := ∀ n ∈ ns, n.chain ≤ k

section

variable {k : ℕ} {n : Node} {ns ms : List Node}

theorem chainsWithin_append : ChainsWithin k (ns ++ ms) ↔ ChainsWithin k ns ∧ ChainsWithin k ms :=
  List.forall_mem_append

theorem chainsWithin_cons : ChainsWithin k (n :: ns) ↔ n.chain ≤ k ∧ ChainsWithin k ns :=
  List.forall_mem_cons

theorem sums_le (h : n.chain ≤ k) : n.sums ≤ k := (Nat.le_max_left _ _).trans h

theorem products_le (h : n.chain ≤ k) : n.products ≤ k := by
  unfold Node.chain at h
  omega

theorem suffixes_le (h : n.chain ≤ k) : n.suffixes ≤ k := by
  unfold Node.chain at h
  omega

theorem chain_le_of_nodes (h : ChainsWithin k n.nodes) : n.chain ≤ k := by
  cases n
  all_goals
    rw [Node.nodes] at h
    exact (List.forall_mem_cons.mp h).1

theorem le_foldr_max {xs : List ℕ} {x : ℕ} (h : x ∈ xs) : x ≤ xs.foldr max 0 := by
  induction xs with
  | nil => cases h
  | cons y xs ih =>
    rw [List.foldr_cons]
    rcases List.mem_cons.mp h with rfl | h
    · exact Nat.le_max_left _ _
    · exact (ih h).trans (Nat.le_max_right _ _)

theorem chainsWithin_longestChain (n : Node) : ChainsWithin n.longestChain n.nodes :=
  fun _ hm => le_foldr_max (List.mem_map_of_mem hm)

end

/-! ## Levels -/

/-- What a number of levels may add to the height. -/
def heightOf (k levels : ℕ) : ℕ := 3 * (k + 1) * levels

theorem heightOf_mono (k : ℕ) {n m : ℕ} (h : n ≤ m) : heightOf k n ≤ heightOf k m :=
  Nat.mul_le_mul_left _ h

theorem heightOf_max (k n m : ℕ) :
    heightOf k (max n m) = max (heightOf k n) (heightOf k m) :=
  (Nat.mul_max_mul_left _ n m).symm

theorem heightOf_succ (k n : ℕ) : heightOf k (n + 1) = heightOf k n + 3 * k + 3 := by
  unfold heightOf
  rw [Nat.mul_succ]
  omega

/-- The trees of a phrase. -/
def Phrase.nodes : Phrase → List Node
  | comparison v | sum v | term v | unary v | power v | suffixed v | primary v => v.nodes
  | links ls => Node.nodesOfLinks ls
  | items vs => Node.nodesOfList vs
  | arguments vs ks => Node.nodesOfList vs ++ Node.nodesOfKeywords ks

/-- **How high the trees of a phrase are** that takes so many levels, where no chain has more than
`k` operations. What a chain adds is told by its own length. -/
def Low (k : ℕ) : Phrase → ℕ → Prop
  | .comparison v, n => v.height ≤ heightOf k n
  | .links ls, n => Node.heightOfLinks ls ≤ heightOf k n + 3 * k + 2
  | .sum v, n => v.height ≤ heightOf k n + 2 * k + 2 + v.sums
  | .term v, n => v.height ≤ heightOf k n + k + 2 + v.products
  | .unary v, n | .power v, n => v.height ≤ heightOf k n + k + 2
  | .suffixed v, n => v.height ≤ heightOf k n + 1 + v.suffixes
  | .primary v, n => v.height ≤ heightOf k n + 1
  | .items vs, n => Node.heightOfList vs ≤ heightOf k n
  | .arguments vs ks, n =>
    Node.heightOfList vs ≤ heightOf k n ∧ Node.heightOfKeywords ks ≤ heightOf k n

/-! ## What a rule adds -/

section

variable {k n m : ℕ} {v l r : Node} {ls : List (Comparison × Node)}

theorem low_comparison (hv : v.sums ≤ k) (h : Low k (.sum v) n) (h' : Low k (.links ls) m) :
    Low k (.comparison (v.chained ls)) (max n m + 1) := by
  have hlevel := heightOf_succ k (max n m)
  have hmax := heightOf_max k n m
  have hfirst : v.height ≤ heightOf k n + 2 * k + 2 + v.sums := h
  have hlinks : Node.heightOfLinks ls ≤ heightOf k m + 3 * k + 2 := h'
  rcases ls with _ | ⟨link, ls⟩
  · change v.height ≤ heightOf k (max n m + 1)
    omega
  · change max v.height (Node.heightOfLinks (link :: ls)) + 1 ≤ heightOf k (max n m + 1)
    omega

theorem low_link {op : Comparison} (hv : v.sums ≤ k) (h : Low k (.sum v) n)
    (h' : Low k (.links ls) m) : Low k (.links ((op, v) :: ls)) (max n m) := by
  have hmax := heightOf_max k n m
  have hfirst : v.height ≤ heightOf k n + 2 * k + 2 + v.sums := h
  have hlinks : Node.heightOfLinks ls ≤ heightOf k m + 3 * k + 2 := h'
  change max v.height (Node.heightOfLinks ls) ≤ heightOf k (max n m) + 3 * k + 2
  omega

theorem low_sum {mark : Mark} {op : Operator} (hop : mark.additive? = some op)
    (hr : r.products ≤ k) (h : Low k (.sum l) n) (h' : Low k (.term r) m) :
    Low k (.sum (.binary op l r)) (max n m) := by
  have hmax := heightOf_max k n m
  have hsums : (Node.binary op l r).sums = l.sums + 1 := by
    cases mark <;> cases hop <;> rfl
  have hleft : l.height ≤ heightOf k n + 2 * k + 2 + l.sums := h
  have hright : r.height ≤ heightOf k m + k + 2 + r.products := h'
  change max l.height r.height + 1 ≤
    heightOf k (max n m) + 2 * k + 2 + (Node.binary op l r).sums
  omega

theorem low_term {mark : Mark} {op : Operator} (hop : mark.multiplicative? = some op)
    (h : Low k (.term l) n) (h' : Low k (.unary r) m) :
    Low k (.term (.binary op l r)) (max n m) := by
  have hmax := heightOf_max k n m
  have hproducts : (Node.binary op l r).products = l.products + 1 := by
    cases mark <;> cases hop <;> rfl
  have hleft : l.height ≤ heightOf k n + k + 2 + l.products := h
  have hright : r.height ≤ heightOf k m + k + 2 := h'
  change max l.height r.height + 1 ≤
    heightOf k (max n m) + k + 2 + (Node.binary op l r).products
  omega

theorem low_signed {s : Sign} (h : Low k (.unary v) n) : Low k (.unary (.signed s v)) (n + 1) := by
  have hlevel := heightOf_succ k n
  have hoperand : v.height ≤ heightOf k n + k + 2 := h
  change v.height + 1 ≤ heightOf k (n + 1) + k + 2
  omega

theorem low_power {op : Operator} (hl : l.suffixes ≤ k) (h : Low k (.suffixed l) n)
    (h' : Low k (.unary r) m) : Low k (.power (.binary op l r)) (max n (m + 1)) := by
  have hlevel := heightOf_succ k m
  have hmax := heightOf_max k n (m + 1)
  have hbase : l.height ≤ heightOf k n + 1 + l.suffixes := h
  have hexponent : r.height ≤ heightOf k m + k + 2 := h'
  change max l.height r.height + 1 ≤ heightOf k (max n (m + 1)) + k + 2
  omega

theorem low_call {as : List Node} {ks : List (String × Node)} (h : Low k (.suffixed v) n)
    (h' : Low k (.arguments as ks) m) : Low k (.suffixed (.call v as ks)) (max n m) := by
  have hmax := heightOf_max k n m
  have hcallee : v.height ≤ heightOf k n + 1 + v.suffixes := h
  obtain ⟨has, hks⟩ : Node.heightOfList as ≤ heightOf k m ∧
    Node.heightOfKeywords ks ≤ heightOf k m := h'
  change max v.height (max (Node.heightOfList as) (Node.heightOfKeywords ks)) + 1 ≤
    heightOf k (max n m) + 1 + (v.suffixes + 1)
  omega

theorem low_subscript {i : Node} (h : Low k (.suffixed v) n) (h' : Low k (.comparison i) m) :
    Low k (.suffixed (.subscript v i)) (max n m) := by
  have hmax := heightOf_max k n m
  have hvalue : v.height ≤ heightOf k n + 1 + v.suffixes := h
  have hindex : i.height ≤ heightOf k m := h'
  change max v.height i.height + 1 ≤ heightOf k (max n m) + 1 + (v.suffixes + 1)
  omega

theorem low_items {vs : List Node} (h : Low k (.comparison v) n) (h' : Low k (.items vs) m) :
    Low k (.items (v :: vs)) (max n m) := by
  change max v.height (Node.heightOfList vs) ≤ heightOf k (max n m)
  rw [heightOf_max]
  exact max_le_max h h'

theorem low_positionals {as : List Node} {ks : List (String × Node)}
    (h : Low k (.comparison v) n) (h' : Low k (.arguments as ks) m) :
    Low k (.arguments (v :: as) ks) (max n m) :=
  ⟨low_items h h'.1, h'.2.trans (heightOf_mono k (Nat.le_max_right n m))⟩

theorem low_keywords {name : String} {ks : List (String × Node)} (h : Low k (.comparison v) n)
    (h' : Low k (.arguments [] ks) m) : Low k (.arguments [] ((name, v) :: ks)) (max n m) := by
  refine ⟨Nat.zero_le _, ?_⟩
  change max v.height (Node.heightOfKeywords ks) ≤ heightOf k (max n m)
  rw [heightOf_max]
  exact max_le_max h h'.2

end

/-! ## What is derived is low -/

section

variable {k : ℕ} {v : Node} {ns ms : List Node}

theorem chainsWithin_chained {ls : List (Comparison × Node)}
    (h : ChainsWithin k (v.chained ls).nodes) :
    ChainsWithin k v.nodes ∧ ChainsWithin k (Node.nodesOfLinks ls) := by
  rcases ls with _ | ⟨l, ls⟩
  · exact ⟨h, fun _ hn => absurd hn List.not_mem_nil⟩
  · have hcompare : (v.chained (l :: ls)).nodes =
        .compare v (l :: ls) :: (v.nodes ++ Node.nodesOfLinks (l :: ls)) := by
      rw [Node.chained, Node.nodes]
      exact List.cons_ne_nil l ls
    rw [hcompare, chainsWithin_cons, chainsWithin_append] at h
    exact h.2

end

/-- **What is derived is low**: with at most `k` operations in any chain every level that the phrase
takes adds no more than `3 * (k + 1)`. -/
theorem Derives.low {p : Phrase} {n k : ℕ} {ts : List Token} (h : Derives p n ts)
    (hk : ChainsWithin k p.nodes) : Low k p n := by
  induction h with
  | comparison _ _ ih ih' =>
    obtain ⟨hv, hls⟩ := chainsWithin_chained hk
    exact low_comparison (sums_le (chain_le_of_nodes hv)) (ih hv) (ih' hls)
  | noLinks => exact Nat.zero_le _
  | link _ _ _ ih ih' =>
    simp only [Phrase.nodes, Node.nodesOfLinks, chainsWithin_append] at hk
    exact low_link (sums_le (chain_le_of_nodes hk.1)) (ih hk.1) (ih' hk.2)
  | @sumOfTerm v n _ _ ih =>
    have hterm := ih hk
    have hchain := products_le (chain_le_of_nodes hk)
    simp only [Low] at hterm ⊢
    omega
  | sum hop _ _ ih ih' =>
    simp only [Phrase.nodes, Node.nodes, chainsWithin_cons, chainsWithin_append] at hk
    obtain ⟨-, hl, hr⟩ := hk
    exact low_sum hop (products_le (chain_le_of_nodes hr)) (ih hl) (ih' hr)
  | @termOfUnary v n _ _ ih => exact (ih hk).trans (Nat.le_add_right _ _)
  | term hop _ _ ih ih' =>
    simp only [Phrase.nodes, Node.nodes, chainsWithin_cons, chainsWithin_append] at hk
    exact low_term hop (ih hk.2.1) (ih' hk.2.2)
  | unaryOfPower _ ih => exact ih hk
  | signed _ _ ih =>
    simp only [Phrase.nodes, Node.nodes, chainsWithin_cons] at hk
    exact low_signed (ih hk.2)
  | @powerOfSuffixed v n _ _ ih =>
    have hsuffixed := ih hk
    have hchain := suffixes_le (chain_le_of_nodes hk)
    simp only [Low] at hsuffixed ⊢
    omega
  | power _ _ _ ih ih' =>
    simp only [Phrase.nodes, Node.nodes, chainsWithin_cons, chainsWithin_append] at hk
    obtain ⟨-, hl, hr⟩ := hk
    exact low_power (suffixes_le (chain_le_of_nodes hl)) (ih hl) (ih' hr)
  | suffixedOfPrimary _ ih => exact (ih hk).trans (Nat.le_add_right _ _)
  | callEmpty _ ih =>
    simp only [Phrase.nodes, Node.nodes, chainsWithin_cons, chainsWithin_append] at hk
    have hf := ih hk.2.1.1
    simp only [Low, Node.height, Node.heightOfList, Node.heightOfKeywords, Node.suffixes] at hf ⊢
    omega
  | call _ _ ih ih' =>
    simp only [Phrase.nodes, Node.nodes, List.append_assoc, chainsWithin_cons,
      chainsWithin_append] at hk
    obtain ⟨-, hf, has, hks⟩ := hk
    exact low_call (ih hf) (ih' (chainsWithin_append.mpr ⟨has, hks⟩))
  | member _ ih =>
    simp only [Phrase.nodes, Node.nodes, chainsWithin_cons] at hk
    have hv := ih hk.2
    simp only [Low, Node.height, Node.suffixes] at hv ⊢
    omega
  | subscript _ _ ih ih' =>
    simp only [Phrase.nodes, Node.nodes, chainsWithin_cons, chainsWithin_append] at hk
    exact low_subscript (ih hk.2.1) (ih' hk.2.2)
  | number | text | name => exact Nat.zero_le _
  | parens _ ih => exact (ih hk).trans (Nat.le_add_right _ _)
  | listEmpty =>
    simp only [Low, Node.height, Node.heightOfList]
    omega
  | list _ ih =>
    simp only [Phrase.nodes, Node.nodes, chainsWithin_cons] at hk
    have hvs := ih hk.2
    simp only [Low, Node.height] at hvs ⊢
    omega
  | item _ ih =>
    simp only [Phrase.nodes, Node.nodesOfList, List.append_nil] at hk
    have hv := ih hk
    simp only [Low, Node.heightOfList] at hv ⊢
    omega
  | items _ _ ih ih' =>
    simp only [Phrase.nodes, Node.nodesOfList, chainsWithin_append] at hk
    exact low_items (ih hk.1) (ih' hk.2)
  | positional _ ih =>
    simp only [Phrase.nodes, Node.nodesOfList, Node.nodesOfKeywords, List.append_nil] at hk
    exact ⟨Nat.max_le.mpr ⟨ih hk, Nat.zero_le _⟩, Nat.zero_le _⟩
  | positionals _ _ ih ih' =>
    simp only [Phrase.nodes, Node.nodesOfList, List.append_assoc, chainsWithin_append] at hk
    exact low_positionals (ih hk.1) (ih' (chainsWithin_append.mpr hk.2))
  | keyword _ ih =>
    simp only [Phrase.nodes, Node.nodesOfList, Node.nodesOfKeywords, List.append_nil,
      List.nil_append] at hk
    exact ⟨Nat.zero_le _, Nat.max_le.mpr ⟨ih hk, Nat.zero_le _⟩⟩
  | keywords _ _ _ ih ih' =>
    simp only [Phrase.nodes, Node.nodesOfList, Node.nodesOfKeywords, List.nil_append,
      chainsWithin_append] at hk
    exact low_keywords (ih hk.1) (ih' hk.2)

/-! ## Flat sums -/

/-- `1+1+…+1` with so many signs. -/
def flatSumText : ℕ → List Char
  | 0 => ['1']
  | n + 1 => flatSumText n ++ ['+', '1']

/-- What `1+1+…+1` stands for. -/
def flatSum : ℕ → Node
  | 0 => .number (number ['1']).1
  | n + 1 => .binary .add (flatSum n) (.number (number ['1']).1)

theorem height_flatSum (n : ℕ) : (flatSum n).height = n := by
  induction n with
  | zero => rfl
  | succ n ih => rw [flatSum, Node.height, Node.height, ih, Nat.max_zero]

/-- The tokens of `1+1+…+1`. -/
def flatSumTokens : ℕ → List Token
  | 0 => [.number (number ['1']).1]
  | n + 1 => flatSumTokens n ++ [.mark .plus, .number (number ['1']).1]

theorem derives_one : Derives (.term (.number (number ['1']).1)) 0 [.number (number ['1']).1] :=
  .termOfUnary (.unaryOfPower (.powerOfSuffixed (.suffixedOfPrimary .number)))

theorem derives_flatSum (n : ℕ) : Derives (.sum (flatSum n)) 0 (flatSumTokens n) := by
  induction n with
  | zero => exact .sumOfTerm derives_one
  | succ n ih => exact .sum rfl ih derives_one

/-- A one is read up to the end of the text or to a sign. -/
theorem token?_one {rest : List Char} (h : rest = [] ∨ ∃ more, rest = '+' :: more) :
    token? (Text.trimLeft ('1' :: rest)) = some (.number (number ['1']).1, rest) := by
  obtain rfl | ⟨more, rfl⟩ := h
  · exact token?_number rfl
  · exact token?_number rfl

theorem spells_flatSum (n : ℕ) {rest : List Char} (h : rest = [] ∨ ∃ more, rest = '+' :: more) :
    Spells (flatSumText n ++ rest) (flatSumTokens n) rest := by
  induction n generalizing rest with
  | zero => exact spells_single (token?_one h)
  | succ n ih =>
    have hlast : Spells ('+' :: '1' :: rest) [.mark .plus, .number (number ['1']).1] rest :=
      ⟨'1' :: rest, token?_spelling .plus ('1' :: rest), spells_single (token?_one h)⟩
    rw [flatSumText, List.append_assoc]
    exact (ih (.inr ⟨'1' :: rest, rfl⟩)).append hlast

/-- **A sum of ones is read however long it is**, and is as high as it is long
(`height_flatSum`). -/
theorem parse_flatSum (n : ℕ) : parse (String.ofList (flatSumText n)) = .ok (flatSum n) := by
  have hspells : Spells (flatSumText n) (flatSumTokens n) [] := by
    have hnil := spells_flatSum n (.inl (Eq.refl ([] : List Char)))
    rwa [List.append_nil] at hnil
  have hderives : Derives (.comparison (flatSum n)) 1 (flatSumTokens n) := by
    have hchained := (derives_flatSum n).comparison .noLinks
    rwa [List.append_nil] at hchained
  refine parse_of_derives (by decide) ?_ hderives
  rw [String.toList_ofList]
  exact tokens_iff.mpr hspells

/-! ## The height of what is read -/

/-- **The height of a tree that is read** is at most `3 * (k + 1)` for each level of the budget,
where `k` is the number of operations in the longest chain of the tree; with chains of two
operations that is within ten for each level. -/
theorem height_le_of_parse {text : String} {tree : Node} (h : parse text = .ok tree) :
    tree.height ≤ 3 * (tree.longestChain + 1) * maxNesting ∧
      (tree.longestChain ≤ 2 → tree.height ≤ 10 * maxNesting) := by
  obtain ⟨n, hn, ts, -, hd⟩ := derives_of_parse h
  have hlow : tree.height ≤ heightOf tree.longestChain n := hd.low (chainsWithin_longestChain tree)
  have hheight : tree.height ≤ 3 * (tree.longestChain + 1) * maxNesting :=
    hlow.trans (heightOf_mono _ hn)
  refine ⟨hheight, fun hchain => hheight.trans (Nat.mul_le_mul_right maxNesting ?_)⟩
  omega

/-- The sum `1+1+1` has a chain of two operations. -/
theorem height_threeOnes : parse "1+1+1" = .ok (flatSum 2) ∧ (flatSum 2).longestChain = 2 ∧
    (flatSum 2).height ≤ 10 * maxNesting :=
  have hchain : (flatSum 2).longestChain = 2 := by decide
  ⟨parse_flatSum 2, hchain, (height_le_of_parse (parse_flatSum 2)).2 (Nat.le_of_eq hchain)⟩

/-- **The guard does not bound the height**: the sum of 1002 ones is read, and is higher than ten
times the guard. -/
theorem thousandOnes_above_guard : parse (String.ofList (flatSumText 1001)) = .ok (flatSum 1001) ∧
    ¬ (flatSum 1001).height ≤ 10 * maxNesting := by
  refine ⟨parse_flatSum 1001, ?_⟩
  rw [height_flatSum]
  decide

end TickBacktest.Expression
