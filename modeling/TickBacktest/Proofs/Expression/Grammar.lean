import Mathlib.Data.List.DropRight
import TickBacktest.Proofs.Expression.Lexeme

/-! # The grammar

The phrases of the language over tokens, each with the tree it stands for (`Derives`). A comparison,
which is also what stands in parentheses, brackets and arguments, a signed operand and an exponent
lie one level deeper than what they are part of; the index of `Derives` counts the levels that a
phrase takes.

A text spells tokens (`Spells`) with blanks between them at will; its tokens are the ones that it
spells with nothing left (`tokens_iff`). The rules of the grammar are then rules for the phrases
that stand in a text (`Reads`). -/

namespace TickBacktest.Expression

open Text

/-! ## Phrases -/

/-- The kinds of phrases, with what they stand for. -/
inductive Phrase where
  | comparison (value : Node)
  | links (values : List (Comparison × Node))
  | sum (value : Node)
  | term (value : Node)
  | unary (value : Node)
  | power (value : Node)
  | suffixed (value : Node)
  | primary (value : Node)
  | items (values : List Node)
  | arguments (values : List Node) (keywords : List (String × Node))

/-- A chain of comparisons; one without links is its first operand. -/
def Node.chained (first : Node) : List (Comparison × Node) → Node
  | [] => first
  | links => .compare first links

/-- **The grammar of the language.** `Derives p n ts`: the tokens `ts` are a phrase `p` that takes
`n` levels. -/
inductive Derives : Phrase → ℕ → List Token → Prop where
  /-- `sum (op sum)*` -/
  | comparison {v : Node} {ls : List (Comparison × Node)} {n m : ℕ} {ts us : List Token} :
      Derives (.sum v) n ts → Derives (.links ls) m us →
      Derives (.comparison (v.chained ls)) (max n m + 1) (ts ++ us)
  | noLinks : Derives (.links []) 0 []
  | link {k : Mark} {op : Comparison} {v : Node} {ls : List (Comparison × Node)} {n m : ℕ}
      {ts us : List Token} : k.comparison? = some op → Derives (.sum v) n ts →
      Derives (.links ls) m us → Derives (.links ((op, v) :: ls)) (max n m) (.mark k :: (ts ++ us))
  /-- `term ((+|-) term)*` -/
  | sumOfTerm {v : Node} {n : ℕ} {ts : List Token} : Derives (.term v) n ts → Derives (.sum v) n ts
  | sum {k : Mark} {op : Operator} {l r : Node} {n m : ℕ} {ts us : List Token} :
      k.additive? = some op → Derives (.sum l) n ts → Derives (.term r) m us →
      Derives (.sum (.binary op l r)) (max n m) (ts ++ .mark k :: us)
  /-- `unary ((*|/|//|%) unary)*` -/
  | termOfUnary {v : Node} {n : ℕ} {ts : List Token} :
      Derives (.unary v) n ts → Derives (.term v) n ts
  | term {k : Mark} {op : Operator} {l r : Node} {n m : ℕ} {ts us : List Token} :
      k.multiplicative? = some op → Derives (.term l) n ts → Derives (.unary r) m us →
      Derives (.term (.binary op l r)) (max n m) (ts ++ .mark k :: us)
  /-- `(-|+) unary | power` -/
  | unaryOfPower {v : Node} {n : ℕ} {ts : List Token} :
      Derives (.power v) n ts → Derives (.unary v) n ts
  | signed {k : Mark} {s : Sign} {v : Node} {n : ℕ} {ts : List Token} : k.sign? = some s →
      Derives (.unary v) n ts → Derives (.unary (.signed s v)) (n + 1) (.mark k :: ts)
  /-- `suffixed ((**|^) unary)?` -/
  | powerOfSuffixed {v : Node} {n : ℕ} {ts : List Token} :
      Derives (.suffixed v) n ts → Derives (.power v) n ts
  | power {k : Mark} {l r : Node} {n m : ℕ} {ts us : List Token} : k.power? = some .pow →
      Derives (.suffixed l) n ts → Derives (.unary r) m us →
      Derives (.power (.binary .pow l r)) (max n (m + 1)) (ts ++ .mark k :: us)
  /-- `primary ('(' arguments? ')' | '.' name | '[' comparison ']')*` -/
  | suffixedOfPrimary {v : Node} {n : ℕ} {ts : List Token} :
      Derives (.primary v) n ts → Derives (.suffixed v) n ts
  | callEmpty {f : Node} {n : ℕ} {ts : List Token} : Derives (.suffixed f) n ts →
      Derives (.suffixed (.call f [] [])) n (ts ++ [.mark .openParen, .mark .closeParen])
  | call {f : Node} {as : List Node} {ks : List (String × Node)} {n m : ℕ} {ts us : List Token} :
      Derives (.suffixed f) n ts → Derives (.arguments as ks) m us →
      Derives (.suffixed (.call f as ks)) (max n m)
        (ts ++ .mark .openParen :: (us ++ [.mark .closeParen]))
  | member {v : Node} {s : String} {n : ℕ} {ts : List Token} : Derives (.suffixed v) n ts →
      Derives (.suffixed (.member v s)) n (ts ++ [.mark .dot, .name s])
  | subscript {v i : Node} {n m : ℕ} {ts us : List Token} : Derives (.suffixed v) n ts →
      Derives (.comparison i) m us → Derives (.suffixed (.subscript v i)) (max n m)
        (ts ++ .mark .openBracket :: (us ++ [.mark .closeBracket]))
  /-- `number | text | name | '(' comparison ')' | '[' items? ']'` -/
  | number {x : Float} : Derives (.primary (.number x)) 0 [.number x]
  | text {s : String} : Derives (.primary (.text s)) 0 [.text s]
  | name {s : String} : Derives (.primary (.name s)) 0 [.name s]
  | parens {v : Node} {n : ℕ} {ts : List Token} : Derives (.comparison v) n ts →
      Derives (.primary v) n (.mark .openParen :: (ts ++ [.mark .closeParen]))
  | listEmpty : Derives (.primary (.list [])) 0 [.mark .openBracket, .mark .closeBracket]
  | list {vs : List Node} {n : ℕ} {ts : List Token} : Derives (.items vs) n ts →
      Derives (.primary (.list vs)) n (.mark .openBracket :: (ts ++ [.mark .closeBracket]))
  /-- `comparison (',' comparison)*` -/
  | item {v : Node} {n : ℕ} {ts : List Token} : Derives (.comparison v) n ts →
      Derives (.items [v]) n ts
  | items {v : Node} {vs : List Node} {n m : ℕ} {ts us : List Token} :
      Derives (.comparison v) n ts → Derives (.items vs) m us →
      Derives (.items (v :: vs)) (max n m) (ts ++ .mark .comma :: us)
  /-- `comparison (',' comparison)* (',' keyword)* | keyword (',' keyword)*`, a keyword being
  `name '=' comparison` with a name of its own -/
  | positional {v : Node} {n : ℕ} {ts : List Token} : Derives (.comparison v) n ts →
      Derives (.arguments [v] []) n ts
  | positionals {v : Node} {as : List Node} {ks : List (String × Node)} {n m : ℕ}
      {ts us : List Token} : Derives (.comparison v) n ts → Derives (.arguments as ks) m us →
      Derives (.arguments (v :: as) ks) (max n m) (ts ++ .mark .comma :: us)
  | keyword {k : String} {v : Node} {n : ℕ} {ts : List Token} : Derives (.comparison v) n ts →
      Derives (.arguments [] [(k, v)]) n (.name k :: .mark .assign :: ts)
  | keywords {k : String} {v : Node} {ks : List (String × Node)} {n m : ℕ} {ts us : List Token} :
      k ∉ ks.map Prod.fst → Derives (.comparison v) n ts → Derives (.arguments [] ks) m us →
      Derives (.arguments [] ((k, v) :: ks)) (max n m)
        (.name k :: .mark .assign :: (ts ++ .mark .comma :: us))

/-! ## Tokens in a text -/

/-- The tokens `ts` stand at the front of `cs` with `rest` after them, up to blanks. -/
def Spells : List Char → List Token → List Char → Prop
  | cs, [], rest => trimLeft cs = trimLeft rest
  | cs, t :: ts, rest => ∃ mid, token? (trimLeft cs) = some (t, mid) ∧ Spells mid ts rest

theorem trimLeft_trimLeft (cs : List Char) : trimLeft (trimLeft cs) = trimLeft cs :=
  List.dropWhile_idempotent _ _

section

variable {cs ds mid rest : List Char} {t : Token} {ts us : List Token}

/-- Blanks in front of a text do not matter. -/
theorem Spells.front (h : Spells ds ts rest) (hcs : trimLeft cs = trimLeft ds) :
    Spells cs ts rest := by
  cases ts with
  | nil => exact hcs.trans h
  | cons t ts =>
    obtain ⟨mid, ht, hts⟩ := h
    exact ⟨mid, hcs ▸ ht, hts⟩

/-- Blanks in front of what follows do not matter. -/
theorem Spells.back (h : Spells cs ts mid) (hmid : trimLeft mid = trimLeft rest) :
    Spells cs ts rest := by
  induction ts generalizing cs with
  | nil => exact Eq.trans h hmid
  | cons t ts ih =>
    obtain ⟨m, ht, hts⟩ := h
    exact ⟨m, ht, ih hts⟩

theorem spells_append :
    Spells cs (ts ++ us) rest ↔ ∃ mid, Spells cs ts mid ∧ Spells mid us rest := by
  induction ts generalizing cs with
  | nil =>
    refine ⟨fun h => ⟨cs, rfl, h⟩, ?_⟩
    rintro ⟨mid, hmid, h⟩
    exact h.front hmid
  | cons t ts ih =>
    constructor
    · rintro ⟨m, ht, h⟩
      obtain ⟨mid, hts, hus⟩ := ih.mp h
      exact ⟨mid, ⟨m, ht, hts⟩, hus⟩
    · rintro ⟨mid, ⟨m, ht, hts⟩, hus⟩
      exact ⟨m, ht, ih.mpr ⟨mid, hts, hus⟩⟩

theorem Spells.append (h : Spells cs ts mid) (h' : Spells mid us rest) :
    Spells cs (ts ++ us) rest :=
  spells_append.mpr ⟨mid, h, h'⟩

/-- One token and what follows it. -/
theorem spells_single (h : token? (trimLeft cs) = some (t, rest)) : Spells cs [t] rest :=
  ⟨rest, h, rfl⟩

/-- The tokens of a text are those it spells with nothing left. -/
theorem tokens_iff : Tokens cs ts ↔ Spells cs ts [] := by
  induction ts generalizing cs with
  | nil =>
    refine ⟨fun h => ?_, fun h => .done h⟩
    cases h
    assumption
  | cons t ts ih =>
    constructor
    · rintro (_ | ⟨ht, hts⟩)
      exact ⟨_, munch_iff.mp ht, ih.mp hts⟩
    · rintro ⟨mid, ht, hts⟩
      exact .next (munch_iff.mpr ht) (ih.mpr hts)

end

/-! ## Phrases in a text -/

/-- The text `cs` up to `rest` is a phrase that takes at most `N` levels. -/
def Reads (p : Phrase) (N : ℕ) (cs rest : List Char) : Prop :=
  ∃ n ≤ N, ∃ ts, Derives p n ts ∧ Spells cs ts rest

section

variable {N : ℕ} {cs ds mid rest rest' : List Char}

theorem Reads.mono {p : Phrase} {M : ℕ} (h : Reads p N cs rest) (hN : N ≤ M) :
    Reads p M cs rest := by
  obtain ⟨n, hn, ts, hd, hs⟩ := h
  exact ⟨n, hn.trans hN, ts, hd, hs⟩

theorem Reads.front {p : Phrase} (h : Reads p N ds rest) (hcs : trimLeft cs = trimLeft ds) :
    Reads p N cs rest := by
  obtain ⟨n, hn, ts, hd, hs⟩ := h
  exact ⟨n, hn, ts, hd, hs.front hcs⟩

theorem Reads.back {p : Phrase} (h : Reads p N cs mid) (hmid : trimLeft mid = trimLeft rest) :
    Reads p N cs rest := by
  obtain ⟨n, hn, ts, hd, hs⟩ := h
  exact ⟨n, hn, ts, hd, hs.back hmid⟩

/-- A phrase that is a phrase of another kind as it stands. -/
theorem Reads.map {p q : Phrase} (h : Reads p N cs rest)
    (hrule : ∀ {n : ℕ} {ts : List Token}, Derives p n ts → Derives q n ts) :
    Reads q N cs rest := by
  obtain ⟨n, hn, ts, hd, hs⟩ := h
  exact ⟨n, hn, ts, hrule hd, hs⟩

/-- A phrase made of two with a mark between them. -/
theorem Reads.infixed {p q r : Phrase} {k : Mark} (hl : Reads p N cs mid)
    (hk : token? (trimLeft mid) = some (.mark k, rest')) (hr : Reads q N rest' rest)
    (hrule : ∀ {n m : ℕ} {ts us : List Token}, Derives p n ts → Derives q m us →
      Derives r (max n m) (ts ++ .mark k :: us)) : Reads r N cs rest := by
  obtain ⟨n, hn, ts, hd, hs⟩ := hl
  obtain ⟨m, hm, us, hd', hs'⟩ := hr
  exact ⟨max n m, max_le hn hm, _, hrule hd hd', hs.append ⟨rest', hk, hs'⟩⟩

/-- A phrase of one token. -/
theorem reads_single {p : Phrase} {t : Token} (h : token? (trimLeft cs) = some (t, rest))
    (hd : Derives p 0 [t]) : Reads p N cs rest :=
  ⟨0, Nat.zero_le N, [t], hd, spells_single h⟩

theorem Reads.unary {v : Node} (h : Reads (.suffixed v) N cs rest) : Reads (.unary v) N cs rest :=
  h.map fun hd => .unaryOfPower (.powerOfSuffixed hd)

theorem Reads.sum {v : Node} (h : Reads (.unary v) N cs rest) : Reads (.sum v) N cs rest :=
  h.map fun hd => .sumOfTerm (.termOfUnary hd)

theorem Reads.chained {v : Node} {ls : List (Comparison × Node)} (h : Reads (.sum v) N cs mid)
    (hls : Reads (.links ls) N mid rest) : Reads (.comparison (v.chained ls)) (N + 1) cs rest := by
  obtain ⟨n, hn, ts, hd, hs⟩ := h
  obtain ⟨m, hm, us, hd', hs'⟩ := hls
  exact ⟨max n m + 1, Nat.succ_le_succ (max_le hn hm), _, .comparison hd hd', hs.append hs'⟩

theorem reads_noLinks : Reads (.links []) N rest rest :=
  ⟨0, Nat.zero_le N, [], .noLinks, rfl⟩

theorem Reads.comparison {v : Node} (h : Reads (.sum v) N cs rest) :
    Reads (.comparison v) (N + 1) cs rest := by
  have hchained : Reads (.comparison (v.chained [])) (N + 1) cs rest := h.chained reads_noLinks
  exact hchained

theorem Reads.link {k : Mark} {op : Comparison} {v : Node} {ls : List (Comparison × Node)}
    (hk : token? (trimLeft cs) = some (.mark k, rest')) (hop : k.comparison? = some op)
    (h : Reads (.sum v) N rest' mid) (hls : Reads (.links ls) N mid rest) :
    Reads (.links ((op, v) :: ls)) N cs rest := by
  obtain ⟨n, hn, ts, hd, hs⟩ := h
  obtain ⟨m, hm, us, hd', hs'⟩ := hls
  exact ⟨max n m, max_le hn hm, _, .link hop hd hd', rest', hk, hs.append hs'⟩

theorem Reads.power {k : Mark} {l r : Node} {M : ℕ} (hl : Reads (.suffixed l) N cs mid)
    (hk : token? (trimLeft mid) = some (.mark k, rest')) (hop : k.power? = some .pow)
    (hr : Reads (.unary r) M rest' rest) (hM : M < N) :
    Reads (.unary (.binary .pow l r)) N cs rest := by
  obtain ⟨n, hn, ts, hd, hs⟩ := hl
  obtain ⟨m, hm, us, hd', hs'⟩ := hr
  exact ⟨max n (m + 1), max_le hn (Nat.lt_of_le_of_lt hm hM), _,
    .unaryOfPower (.power hop hd hd'), hs.append ⟨rest', hk, hs'⟩⟩

theorem Reads.signed {k : Mark} {s : Sign} {v : Node}
    (hk : token? (trimLeft cs) = some (.mark k, rest')) (hs : k.sign? = some s)
    (h : Reads (.unary v) N rest' rest) : Reads (.unary (.signed s v)) (N + 1) cs rest := by
  obtain ⟨n, hn, ts, hd, hts⟩ := h
  exact ⟨n + 1, Nat.succ_le_succ hn, _, .signed hs hd, rest', hk, hts⟩

theorem Reads.parens {v : Node} (h : Reads (.comparison v) N rest' mid)
    (hopen : trimLeft cs = '(' :: rest') (hclose : trimLeft mid = ')' :: rest) :
    Reads (.primary v) N cs rest := by
  obtain ⟨n, hn, ts, hd, hs⟩ := h
  exact ⟨n, hn, _, .parens hd, rest', token?_at .openParen hopen,
    hs.append (spells_single (token?_at .closeParen hclose))⟩

theorem reads_listEmpty (hopen : trimLeft cs = '[' :: rest')
    (hclose : trimLeft rest' = ']' :: rest) : Reads (.primary (.list [])) N cs rest :=
  ⟨0, Nat.zero_le N, _, .listEmpty, rest', token?_at .openBracket hopen,
    spells_single (token?_at .closeBracket hclose)⟩

theorem Reads.list {vs : List Node} (h : Reads (.items vs) N rest' mid)
    (hopen : trimLeft cs = '[' :: rest') (hclose : trimLeft mid = ']' :: rest) :
    Reads (.primary (.list vs)) N cs rest := by
  obtain ⟨n, hn, ts, hd, hs⟩ := h
  exact ⟨n, hn, _, .list hd, rest', token?_at .openBracket hopen,
    hs.append (spells_single (token?_at .closeBracket hclose))⟩

theorem Reads.callEmpty {f : Node} (hf : Reads (.suffixed f) N cs mid)
    (hopen : trimLeft mid = '(' :: rest') (hclose : trimLeft rest' = ')' :: rest) :
    Reads (.suffixed (.call f [] [])) N cs rest := by
  obtain ⟨n, hn, ts, hd, hs⟩ := hf
  exact ⟨n, hn, _, .callEmpty hd, hs.append ⟨rest', token?_at .openParen hopen,
    spells_single (token?_at .closeParen hclose)⟩⟩

theorem Reads.call {f : Node} {as : List Node} {ks : List (String × Node)}
    (hf : Reads (.suffixed f) N cs mid) (hopen : trimLeft mid = '(' :: ds)
    (has : Reads (.arguments as ks) N ds rest') (hclose : trimLeft rest' = ')' :: rest) :
    Reads (.suffixed (.call f as ks)) N cs rest := by
  obtain ⟨n, hn, ts, hd, hs⟩ := hf
  obtain ⟨m, hm, us, hd', hs'⟩ := has
  exact ⟨max n m, max_le hn hm, _, .call hd hd', hs.append ⟨ds, token?_at .openParen hopen,
    hs'.append (spells_single (token?_at .closeParen hclose))⟩⟩

theorem Reads.member {v : Node} {s : String} (h : Reads (.suffixed v) N cs mid)
    (hdot : trimLeft mid = '.' :: ds) (hs : name? (trimLeft ds) = some (s, rest)) :
    Reads (.suffixed (.member v s)) N cs rest := by
  obtain ⟨n, hn, ts, hd, hts⟩ := h
  refine ⟨n, hn, _, .member hd, hts.append ⟨ds, ?_, spells_single (token?_name hs)⟩⟩
  rw [hdot]
  exact token?_dot hs

theorem Reads.subscript {v i : Node} (h : Reads (.suffixed v) N cs mid)
    (hopen : trimLeft mid = '[' :: ds) (hi : Reads (.comparison i) N ds rest')
    (hclose : trimLeft rest' = ']' :: rest) : Reads (.suffixed (.subscript v i)) N cs rest := by
  obtain ⟨n, hn, ts, hd, hs⟩ := h
  obtain ⟨m, hm, us, hd', hs'⟩ := hi
  exact ⟨max n m, max_le hn hm, _, .subscript hd hd', hs.append ⟨ds, token?_at .openBracket hopen,
    hs'.append (spells_single (token?_at .closeBracket hclose))⟩⟩

theorem Reads.keyword {k : String} {v : Node} (hk : keyword? (trimLeft cs) = some (k, mid))
    (h : Reads (.comparison v) N mid rest) : Reads (.arguments [] [(k, v)]) N cs rest := by
  obtain ⟨r, hname, hassign⟩ := keyword?_iff.mp hk
  obtain ⟨n, hn, ts, hd, hs⟩ := h
  exact ⟨n, hn, _, .keyword hd, r, hname, mid, hassign, hs⟩

theorem Reads.keywords {k : String} {v : Node} {ks : List (String × Node)}
    (hnew : k ∉ ks.map Prod.fst) (hk : keyword? (trimLeft cs) = some (k, mid))
    (h : Reads (.comparison v) N mid ds) (hcomma : trimLeft ds = ',' :: rest')
    (hks : Reads (.arguments [] ks) N rest' rest) :
    Reads (.arguments [] ((k, v) :: ks)) N cs rest := by
  obtain ⟨r, hname, hassign⟩ := keyword?_iff.mp hk
  obtain ⟨n, hn, ts, hd, hs⟩ := h
  obtain ⟨m, hm, us, hd', hs'⟩ := hks
  exact ⟨max n m, max_le hn hm, _, .keywords hnew hd hd', r, hname, mid, hassign,
    hs.append ⟨rest', token?_at .comma hcomma, hs'⟩⟩

end

end TickBacktest.Expression
