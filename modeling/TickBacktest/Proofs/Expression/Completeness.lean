import TickBacktest.Proofs.Expression.Reading
import TickBacktest.Proofs.Expression.Soundness

/-! # What derives a tree is read

The parser is complete for the grammar: tokens that derive a phrase are read as this phrase, if
there are levels enough in the budget and what follows does not go on with it (`Derives.isRead`).
There is one lemma for each rule of the grammar.

Together with soundness, the parser accepts exactly its grammar (`parse_ok_iff`). -/

namespace TickBacktest.Expression

open Text

/-! ## Levels -/

/-- The parser of signed operands and exponents for a nesting budget. -/
def deeperOperand : ℕ → Parser Node
  | 0 => exhausted
  | N + 1 => (grammar N).operand

theorem grammar_operand (N : ℕ) :
    (grammar N).operand = operandWith (grammar N).comparison (deeperOperand N) := by
  cases N <;> rfl

/-- The tokens `ts` are read as the phrase `p` with any budget from `n` on. -/
def IsRead : Phrase → ℕ → List Token → Prop
  | .comparison v, n, ts => ∀ {N : ℕ} {cs rest : List Char}, n ≤ N → Spells cs ts rest →
      Stops 1 rest → Finds ((grammar N).comparison cs) v rest
  | .links ls, n, ts => ∀ {N : ℕ} {cs rest : List Char}, n ≤ N → Spells cs ts rest →
      Stops 1 rest → Stops 2 cs ∧
        ∀ {text : List Char} (found : Parsed (List (Comparison × Node)) text),
          trimLeft found.rest = trimLeft cs →
          Finds (comparisons (sum (grammar N).operand) found) (found.value.reverse ++ ls) rest
  | .sum v, n, ts => ∀ {N : ℕ} {cs rest : List Char}, n ≤ N → Spells cs ts rest → Stops 3 rest →
      GoesOn Expression.additive? length_of_additive? (Expression.term (grammar N).operand)
        (Expression.sum (grammar N).operand cs) v rest
  | .term v, n, ts => ∀ {N : ℕ} {cs rest : List Char}, n ≤ N → Spells cs ts rest → Stops 4 rest →
      GoesOn Expression.multiplicative? length_of_multiplicative? (grammar N).operand
        (Expression.term (grammar N).operand cs) v rest
  | .unary v, n, ts | .power v, n, ts => ∀ {N : ℕ} {cs rest : List Char}, n ≤ N →
      Spells cs ts rest → Stops 4 rest → Finds ((grammar N).operand cs) v rest
  | .suffixed v, n, ts => ∀ {N : ℕ} {cs rest : List Char}, n ≤ N → Spells cs ts rest →
      sign? (trimLeft cs) = none ∧ Trails (grammar N).comparison
        (Expression.primary (grammar N).comparison cs >>= trailers (grammar N).comparison) v rest
  | .primary v, n, ts => ∀ {N : ℕ} {cs rest : List Char}, n ≤ N → Spells cs ts rest →
      sign? (trimLeft cs) = none ∧ Finds (Expression.primary (grammar N).comparison cs) v rest
  | .items vs, n, ts => ∀ {N : ℕ} {cs mid rest : List Char} (found : List Node), n ≤ N →
      Spells cs ts mid → trimLeft mid = ']' :: rest →
      ∃ p, Expression.items (grammar N).comparison found cs = .ok p ∧
        p.value = found.reverse ++ vs ∧ p.rest = rest
  | .arguments as ks, n, ts => ∀ {N : ℕ} {cs mid rest : List Char} (found : Arguments), n ≤ N →
      Spells cs ts mid → trimLeft mid = ')' :: rest → found.Admits as ks →
      ∃ p, Expression.arguments (grammar N).comparison found cs = .ok p ∧
        p.value = found.followedBy as ks ∧ p.rest = rest

section

variable {N n m : ℕ} {cs mid rest : List Char} {ts us : List Token}

theorem term_finds {v : Node} (h : IsRead (.term v) n ts) (hn : n ≤ N) (hs : Spells cs ts rest)
    (hstop : Stops 3 rest) : Finds (term (grammar N).operand cs) v rest :=
  (h hn hs (hstop.mono (by decide))).stop hstop.multiplicative?

theorem sum_finds {v : Node} (h : IsRead (.sum v) n ts) (hn : n ≤ N) (hs : Spells cs ts rest)
    (hstop : Stops 2 rest) : Finds (sum (grammar N).operand cs) v rest :=
  (h hn hs (hstop.mono (by decide))).stop hstop.additive?

theorem isRead_noLinks : IsRead (.links []) 0 [] := by
  intro N cs rest _ hs hstop
  refine ⟨(hstop.mono (by decide)).front hs, fun {text} found hfound => ?_⟩
  have hrest : trimLeft found.rest = trimLeft rest := hfound.trans hs
  rw [comparisons]
  split
  · exact ⟨_, rfl, (List.append_nil _).symm, (trimLeft_trimLeft _).trans hrest⟩
  · next hsome => cases hsome.symm.trans ((congrArg comparison? hrest).trans hstop.comparison?)

theorem isRead_link {k : Mark} {op : Comparison} {v : Node} {ls : List (Comparison × Node)}
    (hk : k.comparison? = some op) (h : IsRead (.sum v) n ts) (h' : IsRead (.links ls) m us) :
    IsRead (.links ((op, v) :: ls)) (max n m) (.mark k :: (ts ++ us)) := by
  intro N cs rest hN hs hstop
  obtain ⟨text, htoken, hs⟩ := hs
  obtain ⟨mid, hts, hus⟩ := spells_append.mp hs
  obtain ⟨hstop', hlinks⟩ := h' (le_of_max_le_right hN) hus hstop
  refine ⟨stops_of_mark htoken (by cases k <;> first | decide | cases hk),
    fun {whole} found hfound => ?_⟩
  have hnext : comparison? (trimLeft found.rest) = some (op, text) :=
    comparison?_iff.mpr ⟨k, hfound ▸ htoken, hk⟩
  obtain ⟨right, hright, rfl, hmid⟩ := sum_finds h (le_of_max_le_left hN) hts hstop'
  rw [comparisons]
  split
  · next hnone => cases hnone.symm.trans hnext
  · next op' text' hsome =>
    obtain ⟨rfl, rfl⟩ : op' = op ∧ text' = text := by
      cases hsome.symm.trans hnext
      exact ⟨rfl, rfl⟩
    rw [hright, ok_bind]
    obtain ⟨p, hp, hvalue, hrest⟩ := hlinks ⟨(op', right.value) :: found.value, right.rest,
      Nat.lt_trans (Nat.lt_trans right.shorter (Nat.lt_of_lt_of_le (length_of_comparison? hsome)
        (length_trimLeft_le found.rest))) found.shorter⟩ hmid
    refine ⟨p, hp, ?_, hrest⟩
    rw [hvalue, List.reverse_cons, List.append_assoc]
    rfl

theorem isRead_comparison {v : Node} {ls : List (Comparison × Node)} (h : IsRead (.sum v) n ts)
    (h' : IsRead (.links ls) m us) :
    IsRead (.comparison (v.chained ls)) (max n m + 1) (ts ++ us) := by
  intro N cs rest hN hs hstop
  -- the comparison takes one level of the budget, its operands are read with what remains
  obtain ⟨M, rfl⟩ : ∃ M, N = M + 1 := ⟨N - 1, by omega⟩
  have hM : max n m ≤ M := Nat.le_of_succ_le_succ hN
  obtain ⟨mid, hts, hus⟩ := spells_append.mp hs
  obtain ⟨hstop', hlinks⟩ := h' (le_of_max_le_right hM) hus hstop
  obtain ⟨first, hfirst, rfl, hmid⟩ := sum_finds h (le_of_max_le_left hM) hts hstop'
  obtain ⟨p, hp, hvalue, hrest⟩ := hlinks (first.replace []) hmid
  change Finds (chain (grammar M).operand cs) _ _
  unfold chain
  rw [hfirst, ok_bind, hp, ok_bind]
  have hvalue : p.value = ls := hvalue
  rw [hvalue]
  rcases ls with _ | ⟨l, ls⟩
  · exact ⟨_, rfl, rfl, hrest⟩
  · exact ⟨_, rfl, rfl, hrest⟩

theorem isRead_sumOfTerm {v : Node} (h : IsRead (.term v) n ts) : IsRead (.sum v) n ts := by
  intro N cs rest hN hs hstop
  exact goesOn_first (term_finds h hN hs hstop)

theorem isRead_sum {k : Mark} {op : Operator} {l r : Node} (hk : k.additive? = some op)
    (h : IsRead (.sum l) n ts) (h' : IsRead (.term r) m us) :
    IsRead (.sum (.binary op l r)) (max n m) (ts ++ .mark k :: us) := by
  intro N cs rest hN hs hstop
  obtain ⟨mid, hts, text, htoken, hus⟩ := spells_append.mp hs
  have hmid : Stops 3 mid := stops_of_mark htoken (by cases k <;> first | decide | cases hk)
  exact (h (le_of_max_le_left hN) hts hmid).step (additive?_iff.mpr ⟨k, htoken, hk⟩)
    (term_finds h' (le_of_max_le_right hN) hus hstop)

theorem isRead_termOfUnary {v : Node} (h : IsRead (.unary v) n ts) : IsRead (.term v) n ts := by
  intro N cs rest hN hs hstop
  exact goesOn_first (h hN hs hstop)

theorem isRead_term {k : Mark} {op : Operator} {l r : Node} (hk : k.multiplicative? = some op)
    (h : IsRead (.term l) n ts) (h' : IsRead (.unary r) m us) :
    IsRead (.term (.binary op l r)) (max n m) (ts ++ .mark k :: us) := by
  intro N cs rest hN hs hstop
  obtain ⟨mid, hts, text, htoken, hus⟩ := spells_append.mp hs
  have hmid : Stops 4 mid := stops_of_mark htoken (by cases k <;> first | decide | cases hk)
  exact (h (le_of_max_le_left hN) hts hmid).step (multiplicative?_iff.mpr ⟨k, htoken, hk⟩)
    (h' (le_of_max_le_right hN) hus hstop)

theorem isRead_signed {k : Mark} {s : Sign} {v : Node} (hk : k.sign? = some s)
    (h : IsRead (.unary v) n ts) : IsRead (.unary (.signed s v)) (n + 1) (.mark k :: ts) := by
  intro N cs rest hN hs hstop
  obtain ⟨M, rfl⟩ : ∃ M, N = M + 1 := ⟨N - 1, by omega⟩
  obtain ⟨text, htoken, hs⟩ := hs
  rw [grammar_operand]
  exact operandWith_of_sign (sign?_iff.mpr ⟨k, htoken, hk⟩)
    (h (Nat.le_of_succ_le_succ hN) hs hstop)

theorem isRead_powerOfSuffixed {v : Node} (h : IsRead (.suffixed v) n ts) :
    IsRead (.power v) n ts := by
  intro N cs rest hN hs hstop
  obtain ⟨hsign, htrails⟩ := h hN hs
  rw [grammar_operand]
  exact operandWith_of_base hsign (htrails.stop (hstop.mono (by decide))) hstop.power?

theorem isRead_power {k : Mark} {l r : Node} (hk : k.power? = some .pow)
    (h : IsRead (.suffixed l) n ts) (h' : IsRead (.unary r) m us) :
    IsRead (.power (.binary .pow l r)) (max n (m + 1)) (ts ++ .mark k :: us) := by
  intro N cs rest hN hs hstop
  obtain ⟨M, rfl⟩ : ∃ M, N = M + 1 := ⟨N - 1, by omega⟩
  obtain ⟨mid, hts, text, htoken, hus⟩ := spells_append.mp hs
  obtain ⟨hsign, htrails⟩ := h (le_of_max_le_left hN) hts
  have hmid : Stops 5 mid := stops_of_mark htoken (by cases k <;> first | decide | cases hk)
  rw [grammar_operand]
  exact operandWith_of_power hsign (htrails.stop hmid) (power?_iff.mpr ⟨k, htoken, hk⟩)
    (h' (Nat.le_of_succ_le_succ (le_of_max_le_right hN)) hus hstop)

/-! ### Suffixes -/

theorem Finds.back {α : Type} {r : Except Stuck (Parsed α cs)} {v : α} (h : Finds r v mid)
    (hmid : trimLeft mid = trimLeft rest) : Finds r v rest := by
  obtain ⟨p, hp, hvalue, hrest⟩ := h
  exact ⟨p, hp, hvalue, hrest.trans hmid⟩

theorem Trails.back {nested : Parser Node} {r : Except Stuck (Parsed Node cs)} {v : Node}
    (h : Trails nested r v mid) (hmid : trimLeft mid = trimLeft rest) : Trails nested r v rest := by
  obtain ⟨p, hvalue, hrest, hr⟩ := h
  exact ⟨p, hvalue, hrest.trans hmid, hr⟩

/-- A phrase does not start with a mark that closes. -/
theorem not_starts_of_close {t : Token} (hs : Spells cs (t :: ts) rest) {m : Mark}
    {more : List Char} (h : token? (trimLeft cs) = some (.mark m, more)) (hm : m.rank = 0) :
    ¬ t.Starts := by
  intro ht
  obtain ⟨text, htoken, -⟩ := hs
  cases htoken.symm.trans h
  obtain rfl | rfl | rfl | rfl := ht <;> cases hm

theorem isRead_suffixedOfPrimary {v : Node} (h : IsRead (.primary v) n ts) :
    IsRead (.suffixed v) n ts := by
  intro N cs rest hN hs
  obtain ⟨hsign, hfinds⟩ := h hN hs
  exact ⟨hsign, trails_first hfinds⟩

theorem isRead_callEmpty {f : Node} (h : IsRead (.suffixed f) n ts) :
    IsRead (.suffixed (.call f [] [])) n (ts ++ [.mark .openParen, .mark .closeParen]) := by
  intro N cs rest hN hs
  obtain ⟨mid, hts, text, hopen, close, hclose, hrest⟩ := spells_append.mp hs
  obtain ⟨hsign, htrails⟩ := h hN hts
  obtain ⟨p, hp, hvalue, hprest⟩ := orEmpty_of_close (spelling_of_token? hclose)
  exact ⟨hsign, htrails.call (spelling_of_token? hopen) hp hvalue
    ((congrArg trimLeft hprest).trans hrest)⟩

theorem isRead_call {f : Node} {as : List Node} {ks : List (String × Node)}
    (h : IsRead (.suffixed f) n ts) (hopens : Opens (.arguments as ks) us)
    (h' : IsRead (.arguments as ks) m us) : IsRead (.suffixed (.call f as ks)) (max n m)
      (ts ++ .mark .openParen :: (us ++ [.mark .closeParen])) := by
  intro N cs rest hN hs
  obtain ⟨mid, hts, text, hopen, hs⟩ := spells_append.mp hs
  obtain ⟨mid', hus, close, hclose, hrest⟩ := spells_append.mp hs
  obtain ⟨hsign, htrails⟩ := h (le_of_max_le_left hN) hts
  obtain ⟨q, hq, hvalue, rfl⟩ := h' ⟨[], []⟩ (le_of_max_le_right hN)
    (hus.front (trimLeft_trimLeft text)) (spelling_of_token? hclose)
    ⟨fun h => absurd rfl h, fun _ _ => List.not_mem_nil⟩
  obtain ⟨t, us, rfl, ht⟩ := hopens
  obtain ⟨p, hp, hpvalue, hprest⟩ := orEmpty_of_inner ')' ⟨[], []⟩ rfl
    (fun _ h => not_starts_of_close hus (token?_at .closeParen h) rfl ht) hq
  exact ⟨hsign, htrails.call (spelling_of_token? hopen) hp (hpvalue.trans hvalue)
    (hprest ▸ hrest)⟩

theorem isRead_member {v : Node} {s : String} (h : IsRead (.suffixed v) n ts) :
    IsRead (.suffixed (.member v s)) n (ts ++ [.mark .dot, .name s]) := by
  intro N cs rest hN hs
  obtain ⟨mid, hts, text, hdot, more, hname, hrest⟩ := spells_append.mp hs
  obtain ⟨hsign, htrails⟩ := h hN hts
  exact ⟨hsign, (htrails.member (spelling_of_token? hdot) (token?_name_iff.mp hname)).back hrest⟩

theorem isRead_subscript {v i : Node} (h : IsRead (.suffixed v) n ts)
    (h' : IsRead (.comparison i) m us) : IsRead (.suffixed (.subscript v i)) (max n m)
      (ts ++ .mark .openBracket :: (us ++ [.mark .closeBracket])) := by
  intro N cs rest hN hs
  obtain ⟨mid, hts, text, hopen, hs⟩ := spells_append.mp hs
  obtain ⟨mid', hus, close, hclose, hrest⟩ := spells_append.mp hs
  obtain ⟨hsign, htrails⟩ := h (le_of_max_le_left hN) hts
  exact ⟨hsign, (htrails.subscript (spelling_of_token? hopen)
    (h' (le_of_max_le_right hN) hus (stops_of_mark hclose (by decide)))
    (spelling_of_token? hclose)).back hrest⟩

/-! ### Primaries -/

theorem sign?_eq_none {t : Token} (h : token? (trimLeft cs) = some (t, rest))
    (ht : ∀ m, t = .mark m → m.sign? = none) : sign? (trimLeft cs) = none := by
  by_contra hsome
  obtain ⟨⟨s, more⟩, hs⟩ := Option.ne_none_iff_exists'.mp hsome
  obtain ⟨m, hm, hsign⟩ := sign?_iff.mp hs
  rw [h] at hm
  cases hm
  cases (ht m rfl).symm.trans hsign

theorem isRead_number {x : Float} : IsRead (.primary (.number x)) 0 [.number x] := by
  intro N cs rest _ hs
  obtain ⟨more, htoken, hrest⟩ := hs
  exact ⟨sign?_eq_none htoken fun _ h => (by cases h), (primary_of_number htoken).back hrest⟩

theorem isRead_text {s : String} : IsRead (.primary (.text s)) 0 [.text s] := by
  intro N cs rest _ hs
  obtain ⟨more, htoken, hrest⟩ := hs
  exact ⟨sign?_eq_none htoken fun _ h => (by cases h), (primary_of_text htoken).back hrest⟩

theorem isRead_name {s : String} : IsRead (.primary (.name s)) 0 [.name s] := by
  intro N cs rest _ hs
  obtain ⟨more, htoken, hrest⟩ := hs
  exact ⟨sign?_eq_none htoken fun _ h => (by cases h), (primary_of_name htoken).back hrest⟩

theorem isRead_parens {v : Node} (h : IsRead (.comparison v) n ts) :
    IsRead (.primary v) n (.mark .openParen :: (ts ++ [.mark .closeParen])) := by
  intro N cs rest hN hs
  obtain ⟨text, hopen, hs⟩ := hs
  obtain ⟨mid, hts, close, hclose, hrest⟩ := spells_append.mp hs
  refine ⟨sign?_eq_none hopen fun _ h => (by cases h; rfl), ?_⟩
  exact (primary_of_parens (spelling_of_token? hopen)
    (h hN hts (stops_of_mark hclose (by decide))) (spelling_of_token? hclose)).back hrest

theorem isRead_listEmpty :
    IsRead (.primary (.list [])) 0 [.mark .openBracket, .mark .closeBracket] := by
  intro N cs rest _ hs
  obtain ⟨text, hopen, close, hclose, hrest⟩ := hs
  obtain ⟨p, hp, hvalue, hprest⟩ := orEmpty_of_close (spelling_of_token? hclose)
  refine ⟨sign?_eq_none hopen fun _ h => (by cases h; rfl), ?_⟩
  exact (primary_of_list (spelling_of_token? hopen) hp hvalue hprest).back hrest

theorem isRead_list {vs : List Node} (hopens : Opens (.items vs) ts) (h : IsRead (.items vs) n ts) :
    IsRead (.primary (.list vs)) n (.mark .openBracket :: (ts ++ [.mark .closeBracket])) := by
  intro N cs rest hN hs
  obtain ⟨text, hopen, hs⟩ := hs
  obtain ⟨mid, hts, close, hclose, hrest⟩ := spells_append.mp hs
  obtain ⟨q, hq, hvalue, rfl⟩ := h [] hN (hts.front (trimLeft_trimLeft text))
    (spelling_of_token? hclose)
  obtain ⟨t, us, rfl, ht, -⟩ := hopens
  obtain ⟨p, hp, hpvalue, hprest⟩ := orEmpty_of_inner ']' [] rfl
    (fun _ h => not_starts_of_close hts (token?_at .closeBracket h) rfl ht) hq
  refine ⟨sign?_eq_none hopen fun _ h => (by cases h; rfl), ?_⟩
  exact (primary_of_list (spelling_of_token? hopen) hp (hpvalue.trans hvalue) hprest).back hrest

/-! ### Items and arguments -/

theorem isRead_item {v : Node} (h : IsRead (.comparison v) n ts) : IsRead (.items [v]) n ts := by
  intro N cs mid rest found hN hs hclose
  exact items_of_close (h hN hs (stops_of_mark (token?_at .closeBracket hclose) (by decide))) hclose

theorem isRead_items {v : Node} {vs : List Node} (h : IsRead (.comparison v) n ts)
    (h' : IsRead (.items vs) m us) :
    IsRead (.items (v :: vs)) (max n m) (ts ++ .mark .comma :: us) := by
  intro N cs mid rest found hN hs hclose
  obtain ⟨inner, hts, text, hcomma, hus⟩ := spells_append.mp hs
  exact items_of_comma (h (le_of_max_le_left hN) hts (stops_of_mark hcomma (by decide)))
    (spelling_of_token? hcomma) (h' _ (le_of_max_le_right hN) hus hclose)

/-- A positional argument is not taken for a keyword. -/
theorem keyword?_eq_none {v : Node} (hopens : Opens (.comparison v) ts) (hs : Spells cs ts rest)
    (hstop : Stops 1 rest) : keyword? (trimLeft cs) = none := by
  by_contra hsome
  obtain ⟨⟨k, value⟩, hk⟩ := Option.ne_none_iff_exists'.mp hsome
  obtain ⟨mid, hname, hassign⟩ := keyword?_iff.mp hk
  obtain ⟨t, us, rfl, -, hsecond⟩ := hopens
  obtain ⟨mid', htoken, hus⟩ := hs
  rw [htoken] at hname
  cases hname
  rcases us with _ | ⟨u, us⟩
  · have hrest : trimLeft mid = trimLeft rest := hus
    exact absurd (hstop.mark_rank (hrest ▸ hassign)) (by decide)
  · obtain ⟨_, hu, -⟩ := hus
    rw [hassign] at hu
    cases hu
    exact hsecond rfl

theorem isRead_positional {v : Node} (hopens : Opens (.comparison v) ts)
    (h : IsRead (.comparison v) n ts) : IsRead (.arguments [v] []) n ts := by
  intro N cs mid rest found hN hs hclose hadmits
  have hfound : found.keywords = [] := by
    by_contra hne
    cases hadmits.positional hne
  have hstop : Stops 1 mid := stops_of_mark (token?_at .closeParen hclose) (by decide)
  obtain ⟨p, hp, hvalue, hrest⟩ := arguments_of_close (argument_of_positional
    (keyword?_eq_none hopens hs hstop) hfound (h hN (hs.front (trimLeft_trimLeft cs)) hstop)) hclose
  refine ⟨p, hp, ?_, hrest⟩
  rw [hvalue, Arguments.followedBy, hfound, List.reverse_cons]
  rfl

theorem isRead_positionals {v : Node} {as : List Node} {ks : List (String × Node)}
    (hopens : Opens (.comparison v) ts) (h : IsRead (.comparison v) n ts)
    (h' : IsRead (.arguments as ks) m us) :
    IsRead (.arguments (v :: as) ks) (max n m) (ts ++ .mark .comma :: us) := by
  intro N cs mid rest found hN hs hclose hadmits
  have hfound : found.keywords = [] := by
    by_contra hne
    cases hadmits.positional hne
  obtain ⟨inner, hts, text, hcomma, hus⟩ := spells_append.mp hs
  have hstop : Stops 1 inner := stops_of_mark hcomma (by decide)
  obtain ⟨all, hall, hvalue, rfl⟩ := h' ⟨v :: found.positional, []⟩
    (le_of_max_le_right hN) hus hclose ⟨fun h => absurd rfl h, fun _ _ => List.not_mem_nil⟩
  obtain ⟨p, hp, hpvalue, hprest⟩ := arguments_of_comma (argument_of_positional
    (keyword?_eq_none hopens hts hstop) hfound
    (h (le_of_max_le_left hN) (hts.front (trimLeft_trimLeft cs)) hstop))
    (spelling_of_token? hcomma) hall
  refine ⟨p, hp, ?_, hprest⟩
  simp [hpvalue, hvalue, Arguments.followedBy, hfound]

theorem isRead_keyword {k : String} {v : Node} (h : IsRead (.comparison v) n ts) :
    IsRead (.arguments [] [(k, v)]) n (.name k :: .mark .assign :: ts) := by
  intro N cs mid rest found hN hs hclose hadmits
  obtain ⟨name, hname, text, hassign, hts⟩ := hs
  obtain ⟨p, hp, hvalue, hrest⟩ := arguments_of_close (argument_of_keyword
    (keyword?_iff.mpr ⟨name, hname, hassign⟩) (hadmits.fresh k List.mem_cons_self)
    (h hN hts (stops_of_mark (token?_at .closeParen hclose) (by decide)))) hclose
  refine ⟨p, hp, ?_, hrest⟩
  rw [hvalue, Arguments.followedBy, List.reverse_cons, List.append_nil]

theorem isRead_keywords {k : String} {v : Node} {ks : List (String × Node)}
    (hk : k ∉ ks.map Prod.fst) (h : IsRead (.comparison v) n ts)
    (h' : IsRead (.arguments [] ks) m us) : IsRead (.arguments [] ((k, v) :: ks)) (max n m)
      (.name k :: .mark .assign :: (ts ++ .mark .comma :: us)) := by
  intro N cs mid rest found hN hs hclose hadmits
  obtain ⟨name, hname, text, hassign, hs⟩ := hs
  obtain ⟨inner, hts, more, hcomma, hus⟩ := spells_append.mp hs
  obtain ⟨all, hall, hvalue, rfl⟩ := h' ⟨found.positional, (k, v) :: found.keywords⟩
    (le_of_max_le_right hN) hus hclose ⟨fun _ => rfl, fun k' hk' hmem => by
      rcases List.mem_cons.mp hmem with heq | hmem
      · subst heq
        exact hk hk'
      · exact hadmits.fresh k' (List.mem_cons_of_mem _ hk') hmem⟩
  obtain ⟨p, hp, hpvalue, hprest⟩ := arguments_of_comma (argument_of_keyword
    (keyword?_iff.mpr ⟨name, hname, hassign⟩) (hadmits.fresh k List.mem_cons_self)
    (h (le_of_max_le_left hN) hts (stops_of_mark hcomma (by decide))))
    (spelling_of_token? hcomma) hall
  refine ⟨p, hp, ?_, hprest⟩
  simp [hpvalue, hvalue, Arguments.followedBy]

end

/-- **What derives a phrase is read as this phrase.** -/
theorem Derives.isRead {p : Phrase} {n : ℕ} {ts : List Token} (h : Derives p n ts) :
    IsRead p n ts := by
  induction h with
  | comparison _ _ ih ih' => exact isRead_comparison ih ih'
  | noLinks => exact isRead_noLinks
  | link hk _ _ ih ih' => exact isRead_link hk ih ih'
  | sumOfTerm _ ih => exact isRead_sumOfTerm ih
  | sum hk _ _ ih ih' => exact isRead_sum hk ih ih'
  | termOfUnary _ ih => exact isRead_termOfUnary ih
  | term hk _ _ ih ih' => exact isRead_term hk ih ih'
  | unaryOfPower _ ih => exact ih
  | signed hk _ ih => exact isRead_signed hk ih
  | powerOfSuffixed _ ih => exact isRead_powerOfSuffixed ih
  | power hk _ _ ih ih' => exact isRead_power hk ih ih'
  | suffixedOfPrimary _ ih => exact isRead_suffixedOfPrimary ih
  | callEmpty _ ih => exact isRead_callEmpty ih
  | call _ h ih ih' => exact isRead_call ih h.opens ih'
  | member _ ih => exact isRead_member ih
  | subscript _ _ ih ih' => exact isRead_subscript ih ih'
  | number => exact isRead_number
  | text => exact isRead_text
  | name => exact isRead_name
  | parens _ ih => exact isRead_parens ih
  | listEmpty => exact isRead_listEmpty
  | list h ih => exact isRead_list h.opens ih
  | item _ ih => exact isRead_item ih
  | items _ _ ih ih' => exact isRead_items ih ih'
  | positional h ih => exact isRead_positional h.opens ih
  | positionals h _ ih ih' => exact isRead_positionals h.opens ih ih'
  | keyword _ ih => exact isRead_keyword ih
  | keywords hk _ _ ih ih' => exact isRead_keywords hk ih ih'

/-! ## Whole texts -/

/-- **A text that derives a tree is read as this tree.** -/
theorem parse_of_derives {text : String} {tree : Node} {n : ℕ} {ts : List Token}
    (hn : n ≤ maxNesting) (ht : Tokens text.toList ts) (hd : Derives (.comparison tree) n ts) :
    parse text = .ok tree := by
  have hs := tokens_iff.mp ht
  obtain ⟨t, us, rfl, -⟩ := hd.opens
  have hchars : parseChars text.toList = .ok tree := by
    unfold parseChars
    split
    · next hnil =>
      obtain ⟨more, htoken, -⟩ := hs
      rw [hnil] at htoken
      cases htoken
    · next c cs htext =>
      have hfront : trimLeft (c :: cs) = trimLeft text.toList := by
        rw [← htext, trimLeft_trimLeft]
      obtain ⟨p, hp, rfl, hrest⟩ := hd.isRead hn (hs.front hfront) (.inl rfl)
      rw [hp, ok_bind]
      split
      · rfl
      · next hmore => cases hmore.symm.trans hrest
  unfold parse
  rw [hchars]

/-- **The parser accepts exactly its grammar**: a text has a tree when its tokens derive the tree,
and it takes no more levels than are allowed. -/
theorem parse_ok_iff (text : String) (tree : Node) : parse text = .ok tree ↔
    ∃ ts n, Tokens text.toList ts ∧ Derives (.comparison tree) n ts ∧ n ≤ maxNesting := by
  constructor
  · intro h
    obtain ⟨n, hn, ts, ht, hd⟩ := derives_of_parse h
    exact ⟨ts, n, ht, hd, hn⟩
  · rintro ⟨ts, n, ht, hd, hn⟩
    exact parse_of_derives hn ht hd

end TickBacktest.Expression
