import TickBacktest.Proofs.Expression.Grammar
import TickBacktest.Proofs.Outcome

/-! # What is read derives its tree

The parser is sound for the grammar: what it reads off a text is spelled by tokens that derive the
tree, and takes no more levels than there are in the budget (`grammar_reads`, `derives_of_parse`).
There is one lemma for each function of the parser, on the assumption that the parsers it is built
from are sound, and an induction on the budget at the end. -/

namespace TickBacktest.Expression

open Text

/-! ## Chains -/

section

variable {next : List Char → Option (Operator × List Char)}
  {shorter : ∀ {cs op rest}, next cs = some (op, rest) → rest.length < cs.length}
  {operand : Parser Node} {text : List Char}

/-- How a chain of operations ends or goes on. -/
theorem operations_ok {left p : Parsed Node text}
    (h : operations next shorter operand left = .ok p) :
    p = left.skipBlanks ∨ ∃ op rest, ∃ right : Parsed Node rest, ∃ left' : Parsed Node text,
      next (trimLeft left.rest) = some (op, rest) ∧ operand rest = .ok right ∧
      left'.value = .binary op left.value right.value ∧ left'.rest = right.rest ∧
      left'.rest.length < left.rest.length ∧ operations next shorter operand left' = .ok p := by
  rw [operations] at h
  split at h
  · cases h
    exact .inl rfl
  · next op rest hnext =>
    obtain ⟨right, hright, h⟩ := bind_ok_iff.mp h
    refine .inr ⟨op, rest, right, _, hnext, hright, rfl, rfl, ?_, h⟩
    exact Nat.lt_trans right.shorter
      (Nat.lt_of_lt_of_le (shorter hnext) (length_trimLeft_le left.rest))

/-- A chain of operations is a phrase if it starts with one and every operation makes another. -/
theorem operations_reads {N : ℕ} {cs : List Char} {loose tight : Node → Phrase}
    (hoperand : ∀ {rest : List Char} {p : Parsed Node rest}, operand rest = .ok p →
      Reads (tight p.value) N rest p.rest)
    (hrule : ∀ {l r : Node} {op : Operator} {mid rest rest' : List Char},
      Reads (loose l) N cs mid → next (trimLeft mid) = some (op, rest') →
      Reads (tight r) N rest' rest → Reads (loose (.binary op l r)) N cs rest)
    {left p : Parsed Node text} (hleft : Reads (loose left.value) N cs left.rest)
    (h : operations next shorter operand left = .ok p) : Reads (loose p.value) N cs p.rest := by
  -- on what is left, for any tree so far: what was read up to there stands in the hypothesis
  induction hlen : left.rest.length using Nat.strong_induction_on generalizing left with
  | _ len ih =>
    obtain rfl | ⟨op, rest, right, left', hnext, hright, hvalue, hrest, hlt, h⟩ := operations_ok h
    · exact hleft.back (trimLeft_trimLeft _).symm
    · refine ih _ (hlen ▸ hlt) ?_ h rfl
      rw [hvalue, hrest]
      exact hrule hleft hnext (hoperand hright)

end

section

variable {N : ℕ} {operand : Parser Node}
  (hoperand : ∀ {cs : List Char} {p : Parsed Node cs}, operand cs = .ok p →
    Reads (.unary p.value) N cs p.rest)
include hoperand

theorem term_reads {cs : List Char} {p : Parsed Node cs} (h : term operand cs = .ok p) :
    Reads (.term p.value) N cs p.rest := by
  obtain ⟨first, hfirst, h⟩ := bind_ok_iff.mp h
  refine operations_reads hoperand ?_ ((hoperand hfirst).map .termOfUnary) h
  intro l r op mid rest rest' hl hnext hr
  obtain ⟨k, hk, hop⟩ := multiplicative?_iff.mp hnext
  exact hl.infixed hk hr (.term hop)

theorem sum_reads {cs : List Char} {p : Parsed Node cs} (h : sum operand cs = .ok p) :
    Reads (.sum p.value) N cs p.rest := by
  obtain ⟨first, hfirst, h⟩ := bind_ok_iff.mp h
  refine operations_reads (term_reads hoperand) ?_ ((term_reads hoperand hfirst).map .sumOfTerm) h
  intro l r op mid rest rest' hl hnext hr
  obtain ⟨k, hk, hop⟩ := additive?_iff.mp hnext
  exact hl.infixed hk hr (.sum hop)

/-- The links of a chain of comparisons, after those that were found before. -/
theorem comparisons_reads {text : List Char} {found p : Parsed (List (Comparison × Node)) text}
    (h : comparisons (sum operand) found = .ok p) :
    ∃ ls, p.value = found.value.reverse ++ ls ∧ Reads (.links ls) N found.rest p.rest := by
  induction hlen : found.rest.length using Nat.strong_induction_on generalizing found with
  | _ len ih =>
    rw [comparisons] at h
    split at h
    · cases h
      exact ⟨[], (List.append_nil _).symm, reads_noLinks.front (trimLeft_trimLeft _).symm⟩
    · next op rest hnext =>
      obtain ⟨right, hright, h⟩ := bind_ok_iff.mp h
      have hlt : right.rest.length < found.rest.length := Nat.lt_trans right.shorter
        (Nat.lt_of_lt_of_le (length_of_comparison? hnext) (length_trimLeft_le found.rest))
      obtain ⟨ls, hls, hlinks⟩ := ih _ (hlen ▸ hlt) h rfl
      obtain ⟨k, hk, hop⟩ := comparison?_iff.mp hnext
      refine ⟨(op, right.value) :: ls, ?_, Reads.link hk hop (sum_reads hoperand hright) hlinks⟩
      rw [hls, List.reverse_cons, List.append_assoc]
      rfl

theorem chain_reads {cs : List Char} {p : Parsed Node cs} (h : chain operand cs = .ok p) :
    Reads (.comparison p.value) (N + 1) cs p.rest := by
  obtain ⟨first, hfirst, h⟩ := bind_ok_iff.mp h
  obtain ⟨links, hlinks, h⟩ := bind_ok_iff.mp h
  obtain ⟨ls, hls, hreads⟩ := comparisons_reads hoperand hlinks
  have hp : p.value = first.value.chained ls ∧ p.rest = links.rest := by
    have hls : links.value = ls := hls
    rw [hls] at h
    rcases ls with _ | ⟨l, ls⟩
    · cases h
      exact ⟨rfl, rfl⟩
    · cases h
      exact ⟨rfl, rfl⟩
  rw [hp.1, hp.2]
  exact (sum_reads hoperand hfirst).chained hreads

end

/-! ## Operands -/

theorem closeWith_ok {α : Type} {cs : List Char} {c : Char} {p q : Parsed α cs}
    (h : closeWith c p = .ok q) : q.value = p.value ∧ trimLeft p.rest = c :: q.rest := by
  unfold closeWith at h
  split at h
  · cases h
  · next d rest hrest =>
    split at h
    · next hd =>
      cases h
      exact ⟨rfl, hd ▸ hrest⟩
    · cases h

theorem orEmpty_ok {α : Type} {close : Char} {empty : α} {inner : Parser α} {cs : List Char}
    {p : Parsed α cs} (h : orEmpty close empty inner cs = .ok p) :
    (p.value = empty ∧ trimLeft cs = close :: p.rest) ∨
      ∃ q, inner (trimLeft cs) = .ok q ∧ q.value = p.value ∧ q.rest = p.rest := by
  unfold orEmpty at h
  split at h
  · next hnil =>
    obtain ⟨q, hq, h⟩ := bind_ok_iff.mp h
    cases h
    rw [hnil]
    exact .inr ⟨q, hq, rfl, rfl⟩
  · next c rest hcons =>
    split at h
    · next hc =>
      cases h
      exact .inl ⟨rfl, hc ▸ hcons⟩
    · obtain ⟨q, hq, h⟩ := bind_ok_iff.mp h
      cases h
      have hinner : ∃ r, inner (trimLeft cs) = .ok r ∧ r.value = q.value ∧ r.rest = q.rest := by
        rw [hcons]
        exact ⟨q, hq, rfl, rfl⟩
      exact .inr hinner

/-- The arguments that were found, latest first, and those that come after them. -/
def Arguments.followedBy (found : Arguments) (as : List Node) (ks : List (String × Node)) :
    Arguments :=
  ⟨found.positional.reverse ++ as, found.keywords.reverse ++ ks⟩

/-- The arguments `as` and `ks` can come after those in `found`: none without a name after one that
has a name, and no name twice. -/
structure Arguments.Admits (found : Arguments) (as : List Node) (ks : List (String × Node)) :
    Prop where
  positional : found.keywords ≠ [] → as = []
  fresh : ∀ k ∈ ks.map Prod.fst, k ∉ found.keywords.map Prod.fst

section

variable {N : ℕ} {nested : Parser Node}
  (hnested : ∀ {cs : List Char} {p : Parsed Node cs}, nested cs = .ok p →
    Reads (.comparison p.value) N cs p.rest)
include hnested

/-- The items of a list up to the closing bracket, after those that were found before. -/
theorem items_reads {found : List Node} {cs : List Char} {p : Parsed (List Node) cs}
    (h : items nested found cs = .ok p) : ∃ vs mid, p.value = found.reverse ++ vs ∧
      Reads (.items vs) N cs mid ∧ trimLeft mid = ']' :: p.rest := by
  induction hlen : cs.length using Nat.strong_induction_on generalizing found cs with
  | _ len ih =>
    rw [items] at h
    obtain ⟨item, hitem, h⟩ := bind_ok_iff.mp h
    split at h
    · cases h
    next c rest hrest =>
    split at h
    · next hc =>
      subst hc
      obtain ⟨all, hall, h⟩ := bind_ok_iff.mp h
      cases h
      have hlt := Nat.lt_trans (length_of_trimLeft hrest) item.shorter
      obtain ⟨vs, mid, hvs, hreads, hmid⟩ := ih _ (hlen ▸ hlt) hall rfl
      refine ⟨item.value :: vs, mid, ?_,
        (hnested hitem).infixed (token?_at .comma hrest) hreads .items, hmid⟩
      change all.value = _
      rw [hvs, List.reverse_cons, List.append_assoc]
      rfl
    split at h
    · next hc =>
      subst hc
      cases h
      exact ⟨[item.value], item.rest, List.reverse_cons, (hnested hitem).map .item, hrest⟩
    · cases h

/-- One argument: positional if no keyword came before, or a keyword with a new name. -/
theorem argument_reads {found : Arguments} {cs : List Char} {p : Parsed Arguments cs}
    (h : argument nested found cs = .ok p) :
    (∃ v, found.keywords = [] ∧ p.value = ⟨v :: found.positional, []⟩ ∧
      Reads (.comparison v) N cs p.rest) ∨
    ∃ k v value, k ∉ found.keywords.map Prod.fst ∧
      p.value = ⟨found.positional, (k, v) :: found.keywords⟩ ∧ keyword? cs = some (k, value) ∧
      Reads (.comparison v) N value p.rest := by
  unfold argument at h
  split at h
  · next k value hk =>
    split at h
    · cases h
    · next hnew =>
      obtain ⟨q, hq, h⟩ := bind_ok_iff.mp h
      cases h
      refine .inr ⟨k, q.value, value, ?_, rfl, hk, hnested hq⟩
      simpa using hnew
  · obtain ⟨q, hq, h⟩ := bind_ok_iff.mp h
    split at h
    · next hempty =>
      cases h
      exact .inl ⟨q.value, List.isEmpty_iff.mp hempty, rfl, hnested hq⟩
    · cases h

/-- The last argument. -/
theorem lastArgument_reads {found : Arguments} {cs : List Char}
    {arg : Parsed Arguments (trimLeft cs)} (h : argument nested found (trimLeft cs) = .ok arg) :
    ∃ as ks, found.followedBy as ks = arg.value.followedBy [] [] ∧ found.Admits as ks ∧
      Reads (.arguments as ks) N cs arg.rest := by
  obtain ⟨v, hnone, hv, hreads⟩ | ⟨k, v, value, hnew, hv, hkey, hreads⟩ := argument_reads hnested h
  · refine ⟨[v], [], ?_, ⟨fun hne => absurd hnone hne, fun _ hk => absurd hk List.not_mem_nil⟩,
      (hreads.front (trimLeft_trimLeft cs).symm).map .positional⟩
    simp [Arguments.followedBy, hv, hnone]
  · refine ⟨[], [(k, v)], ?_, ⟨fun _ => rfl, fun k' hk' => ?_⟩, Reads.keyword hkey hreads⟩
    · simp [Arguments.followedBy, hv]
    · rw [List.mem_singleton.mp hk']
      exact hnew

/-- An argument with others after a comma. -/
theorem nextArgument_reads {found : Arguments} {cs ds rest : List Char}
    {arg : Parsed Arguments (trimLeft cs)} (h : argument nested found (trimLeft cs) = .ok arg)
    (hcomma : trimLeft arg.rest = ',' :: ds) {as : List Node} {ks : List (String × Node)}
    (hadmits : arg.value.Admits as ks) (hlater : Reads (.arguments as ks) N ds rest) :
    ∃ as' ks', found.followedBy as' ks' = arg.value.followedBy as ks ∧ found.Admits as' ks' ∧
      Reads (.arguments as' ks') N cs rest := by
  obtain ⟨v, hnone, hv, hreads⟩ | ⟨k, v, value, hnew, hv, hkey, hreads⟩ := argument_reads hnested h
  · refine ⟨v :: as, ks, ?_, ⟨fun hne => absurd hnone hne, ?_⟩,
      (hreads.front (trimLeft_trimLeft cs).symm).infixed (token?_at .comma hcomma) hlater
        .positionals⟩
    · simp [Arguments.followedBy, hv, hnone]
    · rw [hnone]
      exact fun _ _ => List.not_mem_nil
  · rw [hv] at hadmits
    obtain rfl := hadmits.positional (List.cons_ne_nil _ _)
    have hk : k ∉ ks.map Prod.fst := fun hmem => hadmits.fresh k hmem List.mem_cons_self
    refine ⟨[], (k, v) :: ks, ?_, ⟨fun _ => rfl, fun k' hk' => ?_⟩,
      Reads.keywords hk hkey hreads hcomma hlater⟩
    · simp [Arguments.followedBy, hv]
    · rcases List.mem_cons.mp hk' with rfl | hk'
      · exact hnew
      · exact fun hmem => hadmits.fresh k' hk' (List.mem_cons_of_mem _ hmem)

/-- The arguments of a call up to the closing parenthesis, after those that were found before. -/
theorem arguments_reads {found : Arguments} {cs : List Char} {p : Parsed Arguments cs}
    (h : arguments nested found cs = .ok p) : ∃ as ks mid, p.value = found.followedBy as ks ∧
      found.Admits as ks ∧ Reads (.arguments as ks) N cs mid ∧ trimLeft mid = ')' :: p.rest := by
  induction hlen : cs.length using Nat.strong_induction_on generalizing found cs with
  | _ len ih =>
    rw [arguments] at h
    obtain ⟨arg, harg, h⟩ := bind_ok_iff.mp h
    split at h
    · cases h
    next c rest hrest =>
    have hlt : rest.length < cs.length := Nat.lt_of_lt_of_le
      (Nat.lt_trans (length_of_trimLeft hrest) arg.shorter) (length_trimLeft_le cs)
    split at h
    · next hc =>
      subst hc
      obtain ⟨all, hall, h⟩ := bind_ok_iff.mp h
      cases h
      obtain ⟨as, ks, mid, hvalue, hadmits, hreads, hmid⟩ := ih _ (hlen ▸ hlt) hall rfl
      obtain ⟨as', ks', hfollowed, hadmits', hreads'⟩ :=
        nextArgument_reads hnested harg hrest hadmits hreads
      exact ⟨as', ks', mid, hvalue.trans hfollowed.symm, hadmits', hreads', hmid⟩
    split at h
    · next hc =>
      subst hc
      cases h
      obtain ⟨as, ks, hfollowed, hadmits, hreads⟩ := lastArgument_reads hnested harg
      refine ⟨as, ks, arg.rest, ?_, hadmits, hreads, hrest⟩
      rw [hfollowed]
      simp [Arguments.followedBy]
    · cases h

theorem primary_reads {text : List Char} {p : Parsed Node text} (h : primary nested text = .ok p) :
    Reads (.primary p.value) N text p.rest := by
  unfold primary at h
  split at h
  · cases h
  next c cs htext =>
  have hfront : ∀ {rest : List Char} {t : Token}, token? (c :: cs) = some (t, rest) →
      token? (trimLeft text) = some (t, rest) := fun ht => htext ▸ ht
  dsimp only at h
  split at h
  · next hn =>
    cases h
    exact reads_single (hfront (token?_number hn)) .number
  split at h
  · next hq =>
    split at h
    · next body rest hbody =>
      have htoken : token? (c :: cs) = some (.text (String.ofList body), rest) := by
        rw [token?_text hq, hbody]
        rfl
      cases h
      exact reads_single (hfront htoken) .text
    · cases h
  split at h
  · next hc =>
    subst hc
    obtain ⟨inner, hinner, h⟩ := bind_ok_iff.mp h
    obtain ⟨hvalue, hclose⟩ := closeWith_ok h
    rw [hvalue]
    exact (hnested hinner).parens htext hclose
  split at h
  · next hc =>
    subst hc
    obtain ⟨q, hq, h⟩ := bind_ok_iff.mp h
    cases h
    change Reads (.primary (.list q.value)) N text q.rest
    obtain ⟨hvalue, hclose⟩ | ⟨r, hr, hvalue, hrest⟩ := orEmpty_ok hq
    · rw [hvalue]
      exact reads_listEmpty htext hclose
    · obtain ⟨vs, mid, hvs, hreads, hmid⟩ := items_reads hnested hr
      rw [← hvalue, hvs, ← hrest]
      exact (hreads.front (trimLeft_trimLeft cs).symm).list htext hmid
  split at h
  · next name rest hname =>
    cases h
    exact reads_single (hfront (token?_name hname)) .name
  · cases h

/-- What follows an operand: a call, an attribute, a subscript, or nothing. -/
theorem trailers_reads {cs text : List Char} {base p : Parsed Node text}
    (hbase : Reads (.suffixed base.value) N cs base.rest) (h : trailers nested base = .ok p) :
    Reads (.suffixed p.value) N cs p.rest := by
  induction hlen : base.rest.length using Nat.strong_induction_on generalizing base with
  | _ len ih =>
    rw [trailers] at h
    split at h
    · cases h
      exact hbase.back (trimLeft_trimLeft _).symm
    next c more hmore =>
    dsimp only at h
    split at h
    · next hc =>
      subst hc
      obtain ⟨q, hq, h⟩ := bind_ok_iff.mp h
      refine ih _ (hlen ▸ Nat.lt_trans q.shorter (length_of_trimLeft hmore)) ?_ h rfl
      change Reads (.suffixed (.call base.value q.value.positional q.value.keywords)) N cs q.rest
      obtain ⟨hvalue, hclose⟩ | ⟨r, hr, hvalue, hrest⟩ := orEmpty_ok hq
      · rw [hvalue]
        exact hbase.callEmpty hmore hclose
      · obtain ⟨as, ks, mid, hall, -, hreads, hmid⟩ := arguments_reads hnested hr
        rw [← hvalue, hall, ← hrest]
        exact hbase.call hmore (hreads.front (trimLeft_trimLeft more).symm) hmid
    split at h
    · next hc =>
      subst hc
      split at h
      · next field rest hfield =>
        have hlt : rest.length < base.rest.length := Nat.lt_trans (Nat.lt_of_lt_of_le
          (length_of_name? hfield) (length_trimLeft_le more)) (length_of_trimLeft hmore)
        exact ih _ (hlen ▸ hlt) (hbase.member hmore hfield) h rfl
      · cases h
    split at h
    · next hc =>
      subst hc
      obtain ⟨inner, hinner, h⟩ := bind_ok_iff.mp h
      obtain ⟨q, hq, h⟩ := bind_ok_iff.mp h
      obtain ⟨hvalue, hclose⟩ := closeWith_ok hq
      refine ih _ (hlen ▸ Nat.lt_trans q.shorter (length_of_trimLeft hmore)) ?_ h rfl
      change Reads (.suffixed (.subscript base.value q.value)) N cs q.rest
      rw [hvalue]
      exact hbase.subscript hmore (hnested hinner) hclose
    · cases h
      exact hbase.back (trimLeft_trimLeft _).symm

/-- An operand with a sign in front of it, or a power, where `deeper` reads one level further
down. -/
theorem operandWith_reads {deeper : Parser Node}
    (hdeeper : ∀ {cs : List Char} {p : Parsed Node cs}, deeper cs = .ok p →
      ∃ M < N, Reads (.unary p.value) M cs p.rest)
    {text : List Char} {p : Parsed Node text} (h : operandWith nested deeper text = .ok p) :
    Reads (.unary p.value) N text p.rest := by
  unfold operandWith at h
  split at h
  · next sign rest hsign =>
    obtain ⟨q, hq, h⟩ := bind_ok_iff.mp h
    cases h
    obtain ⟨M, hM, hread⟩ := hdeeper hq
    obtain ⟨k, hk, hsign⟩ := sign?_iff.mp hsign
    exact (Reads.signed hk hsign hread).mono hM
  · obtain ⟨first, hfirst, h⟩ := bind_ok_iff.mp h
    obtain ⟨base, hbase, h⟩ := bind_ok_iff.mp h
    have hsuffixed : Reads (.suffixed base.value) N text base.rest :=
      trailers_reads hnested ((primary_reads hnested hfirst).map .suffixedOfPrimary) hbase
    split at h
    · next rest hpower =>
      obtain ⟨q, hq, h⟩ := bind_ok_iff.mp h
      cases h
      obtain ⟨M, hM, hread⟩ := hdeeper hq
      obtain ⟨k, hk, hpower⟩ := power?_iff.mp hpower
      exact hsuffixed.power hk hpower hread hM
    · cases h
      exact hsuffixed.unary

end

/-! ## Levels -/

/-- **What the parsers for a nesting budget read are phrases that keep to the budget.** -/
theorem grammar_reads (N : ℕ) :
    (∀ {cs : List Char} {p : Parsed Node cs}, (grammar N).comparison cs = .ok p →
      Reads (.comparison p.value) N cs p.rest) ∧
    ∀ {cs : List Char} {p : Parsed Node cs}, (grammar N).operand cs = .ok p →
      Reads (.unary p.value) N cs p.rest := by
  induction N with
  | zero =>
    have hexhausted : ∀ {cs : List Char} {p : Parsed Node cs}, exhausted cs ≠ .ok p :=
      fun h => (by cases h)
    exact ⟨fun h => absurd h hexhausted, operandWith_reads (fun h => absurd h hexhausted)
      fun h => absurd h hexhausted⟩
  | succ N ih =>
    have hchain : ∀ {cs : List Char} {p : Parsed Node cs}, chain (grammar N).operand cs = .ok p →
        Reads (.comparison p.value) (N + 1) cs p.rest := chain_reads ih.2
    exact ⟨hchain, operandWith_reads hchain fun h => ⟨N, Nat.lt_succ_self N, ih.2 h⟩⟩

/-- **A text that is read derives its tree.** -/
theorem derives_of_parse {text : String} {tree : Node} (h : parse text = .ok tree) :
    ∃ n ≤ maxNesting, ∃ ts, Tokens text.toList ts ∧ Derives (.comparison tree) n ts := by
  have hchars : parseChars text.toList = .ok tree := by
    unfold parse at h
    split at h
    · next heq =>
      cases h
      exact heq
    · cases h
  unfold parseChars at hchars
  split at hchars
  · cases hchars
  · next c cs htext =>
    obtain ⟨p, hp, hchars⟩ := bind_ok_iff.mp hchars
    obtain ⟨n, hn, ts, hd, hs⟩ := (grammar_reads maxNesting).1 hp
    split at hchars
    · next hrest =>
      cases hchars
      refine ⟨n, hn, ts, tokens_iff.mpr ((hs.front ?_).back hrest), hd⟩
      rw [← htext, trimLeft_trimLeft]
    · cases hchars

end TickBacktest.Expression
