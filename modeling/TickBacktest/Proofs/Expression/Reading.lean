import TickBacktest.Proofs.Expression.Grammar
import TickBacktest.Proofs.Outcome

/-! # Reading on

What the parser does with a text that starts with a phrase, one lemma for each of its functions. It
matters what follows: a phrase is read up to its end if no mark stands there that goes on with it
(`Stops`), and what is read in a place where something may be missing is not mistaken for the end if
it starts like a phrase (`Derives.opens`).

A chain that groups to the left is read from its first operand on, so the statement for it is that
reading has come to the tree so far and goes on from there (`GoesOn`, `Trails`). -/

namespace TickBacktest.Expression

open Text

/-! ## What may follow -/

/-- How tightly a mark goes on with what stands in front of it. The marks that separate or close do
not go on with anything, and an equals sign never follows a phrase. -/
def Mark.rank : Mark → ℕ
  | comma | closeParen | closeBracket => 0
  | above | below | atLeast | atMost | same | different => 1
  | plus | minus => 2
  | star | slash | percent | doubleSlash => 3
  | doubleStar | caret => 4
  | openParen | openBracket | dot => 5
  | assign => 6

/-- Nothing follows, or a mark that goes on less tightly than `k`. -/
def Stops (k : ℕ) (rest : List Char) : Prop :=
  trimLeft rest = [] ∨ ∃ m more, token? (trimLeft rest) = some (.mark m, more) ∧ m.rank < k

section

variable {k : ℕ} {cs rest more : List Char}

theorem Stops.mono {j : ℕ} (h : Stops k rest) (hk : k ≤ j) : Stops j rest :=
  h.imp_right fun ⟨m, more, hm, hr⟩ => ⟨m, more, hm, Nat.lt_of_lt_of_le hr hk⟩

theorem Stops.front (h : Stops k rest) (hcs : trimLeft cs = trimLeft rest) : Stops k cs := by
  unfold Stops
  rw [hcs]
  exact h

theorem stops_of_mark {m : Mark} (h : token? (trimLeft rest) = some (.mark m, more))
    (hm : m.rank < k) : Stops k rest :=
  .inr ⟨m, more, h, hm⟩

/-- Where a phrase stops, no mark goes on with it. -/
theorem Stops.mark_rank (h : Stops k rest) {m : Mark}
    (hm : token? (trimLeft rest) = some (.mark m, more)) : m.rank < k := by
  obtain hnil | ⟨n, more', hn, hr⟩ := h
  · rw [hnil] at hm
    cases hm
  · rw [hm] at hn
    cases hn
    exact hr

/-- Where a phrase stops, a matcher for marks that go on with it finds nothing. -/
theorem Stops.eq_none (h : Stops k rest) {β : Type} {next : List Char → Option (β × List Char)}
    {kind : Mark → Option β} (hiff : ∀ {b : β} {more : List Char},
      next (trimLeft rest) = some (b, more) ↔
        ∃ m, token? (trimLeft rest) = some (.mark m, more) ∧ kind m = some b)
    (hkind : ∀ m, kind m ≠ none → k ≤ m.rank) : next (trimLeft rest) = none := by
  by_contra hsome
  obtain ⟨⟨b, more⟩, hb⟩ := Option.ne_none_iff_exists'.mp hsome
  obtain ⟨m, hm, hb⟩ := hiff.mp hb
  have := h.mark_rank hm
  have := hkind m (by rw [hb]; exact Option.some_ne_none b)
  omega

theorem Stops.additive? (h : Stops 2 rest) : additive? (trimLeft rest) = none :=
  h.eq_none additive?_iff fun m hm => by cases m <;> first | exact absurd rfl hm | decide

theorem Stops.multiplicative? (h : Stops 3 rest) : multiplicative? (trimLeft rest) = none :=
  h.eq_none multiplicative?_iff fun m hm => by cases m <;> first | exact absurd rfl hm | decide

theorem Stops.comparison? (h : Stops 1 rest) : comparison? (trimLeft rest) = none :=
  h.eq_none comparison?_iff fun m hm => by cases m <;> first | exact absurd rfl hm | decide

theorem Stops.power? (h : Stops 4 rest) : power? (trimLeft rest) = none := by
  by_contra hsome
  obtain ⟨more, hmore⟩ := Option.ne_none_iff_exists'.mp hsome
  obtain ⟨m, hm, hpow⟩ := power?_iff.mp hmore
  have hrank := h.mark_rank hm
  cases m <;> first | exact absurd hrank (by decide) | cases hpow

end

/-! ## How a phrase starts -/

/-- The tokens that a phrase may start with. -/
def Token.Starts : Token → Prop
  | number _ | text _ | name _ => True
  | mark m => m = .plus ∨ m = .minus ∨ m = .openParen ∨ m = .openBracket

/-- How the tokens of a phrase start; no equals sign stands second, except after the name of a
keyword. -/
def Opens : Phrase → List Token → Prop
  | .links _, ts => ts.head? ≠ some (.mark .assign)
  | .arguments _ _, ts => ∃ t us, ts = t :: us ∧ t.Starts
  | _, ts => ∃ t us, ts = t :: us ∧ t.Starts ∧ us.head? ≠ some (.mark .assign)

theorem head?_append_ne {ts us : List Token} {t : Token} (h : ts.head? ≠ some t)
    (h' : us.head? ≠ some t) : (ts ++ us).head? ≠ some t := by
  cases ts with
  | nil => exact h'
  | cons => exact h

theorem head?_mark_ne {m : Mark} {ts : List Token} (h : m ≠ .assign) :
    (Token.mark m :: ts).head? ≠ some (.mark .assign) := by
  rintro ⟨⟩
  exact h rfl

theorem not_assign_of_starts {t : Token} {ts : List Token} (h : t.Starts) :
    (t :: ts).head? ≠ some (.mark .assign) := by
  rintro ⟨⟩
  obtain h | h | h | h := h <;> cases h

theorem Derives.opens {p : Phrase} {n : ℕ} {ts : List Token} (h : Derives p n ts) : Opens p ts := by
  induction h with
  | comparison _ _ ih ih' =>
    obtain ⟨t, us, rfl, ht, hus⟩ := ih
    exact ⟨t, _, rfl, ht, head?_append_ne hus ih'⟩
  | noLinks => exact fun h => (by cases h)
  | link hk => exact head?_mark_ne (by rintro rfl; cases hk)
  | sumOfTerm _ ih | termOfUnary _ ih | unaryOfPower _ ih | powerOfSuffixed _ ih
  | suffixedOfPrimary _ ih | item _ ih => exact ih
  | sum hk _ _ ih | term hk _ _ ih | power hk _ _ ih =>
    obtain ⟨t, us, rfl, ht, hus⟩ := ih
    exact ⟨t, _, rfl, ht, head?_append_ne hus (head?_mark_ne (by rintro rfl; cases hk))⟩
  | @signed k _ _ _ _ hk _ ih =>
    obtain ⟨t, us, rfl, ht, -⟩ := ih
    refine ⟨_, _, rfl, ?_, not_assign_of_starts ht⟩
    cases k <;> first | exact .inl rfl | exact .inr (.inl rfl) | cases hk
  | callEmpty _ ih | call _ _ ih | member _ ih | subscript _ _ ih | items _ _ ih =>
    obtain ⟨t, us, rfl, ht, hus⟩ := ih
    exact ⟨t, _, rfl, ht, head?_append_ne hus (head?_mark_ne (by decide))⟩
  | number | text | name => exact ⟨_, _, rfl, trivial, fun h => (by cases h)⟩
  | parens _ ih =>
    obtain ⟨t, us, rfl, ht, -⟩ := ih
    exact ⟨_, _, rfl, .inr (.inr (.inl rfl)), not_assign_of_starts ht⟩
  | listEmpty => exact ⟨_, _, rfl, .inr (.inr (.inr rfl)), head?_mark_ne (by decide)⟩
  | list _ ih =>
    obtain ⟨t, us, rfl, ht, -⟩ := ih
    exact ⟨_, _, rfl, .inr (.inr (.inr rfl)), not_assign_of_starts ht⟩
  | positional _ ih =>
    obtain ⟨t, us, rfl, ht, -⟩ := ih
    exact ⟨t, us, rfl, ht⟩
  | positionals _ _ ih =>
    obtain ⟨t, us, rfl, ht, -⟩ := ih
    exact ⟨t, _, rfl, ht⟩
  | keyword | keywords => exact ⟨_, _, rfl, trivial⟩

/-! ## Reading on -/

section

variable {cs mid rest text : List Char}

/-- The value `v` is found, with `rest` after it up to blanks. -/
def Finds {α : Type} {cs : List Char} (r : Except Stuck (Parsed α cs)) (v : α)
    (rest : List Char) : Prop :=
  ∃ p, r = .ok p ∧ p.value = v ∧ trimLeft p.rest = trimLeft rest

section

variable {next : List Char → Option (Operator × List Char)}
  {shorter : ∀ {cs op rest}, next cs = some (op, rest) → rest.length < cs.length}
  {operand : Parser Node}

/-- Reading a chain of operations has come to the tree `v`, and goes on at `rest`. -/
def GoesOn (next : List Char → Option (Operator × List Char))
    (shorter : ∀ {cs op rest}, next cs = some (op, rest) → rest.length < cs.length)
    (operand : Parser Node) {cs : List Char} (r : Except Stuck (Parsed Node cs)) (v : Node)
    (rest : List Char) : Prop :=
  ∃ p : Parsed Node cs, p.value = v ∧ trimLeft p.rest = trimLeft rest ∧
    r = operations next shorter operand p

theorem goesOn_first {v : Node} (h : Finds (operand cs) v rest) :
    GoesOn next shorter operand (operand cs >>= operations next shorter operand) v rest := by
  obtain ⟨p, hp, hvalue, hrest⟩ := h
  refine ⟨p, hvalue, hrest, ?_⟩
  rw [hp]
  rfl

theorem GoesOn.step {r : Except Stuck (Parsed Node cs)} {l v : Node} {op : Operator}
    (h : GoesOn next shorter operand r l mid) (hnext : next (trimLeft mid) = some (op, text))
    (hright : Finds (operand text) v rest) :
    GoesOn next shorter operand r (.binary op l v) rest := by
  obtain ⟨p, rfl, hmid, rfl⟩ := h
  obtain ⟨q, hq, rfl, hrest⟩ := hright
  rw [← hmid] at hnext
  rw [operations]
  split
  · next hnone =>
    rw [hnone] at hnext
    cases hnext
  · next op' text' hsome =>
    obtain ⟨rfl, rfl⟩ : op' = op ∧ text' = text := by
      rw [hsome] at hnext
      cases hnext
      exact ⟨rfl, rfl⟩
    rw [hq]
    exact ⟨_, rfl, hrest, rfl⟩

theorem GoesOn.stop {r : Except Stuck (Parsed Node cs)} {v : Node}
    (h : GoesOn next shorter operand r v rest) (hnext : next (trimLeft rest) = none) :
    Finds r v rest := by
  obtain ⟨p, rfl, hrest, rfl⟩ := h
  refine ⟨p.skipBlanks, ?_, rfl, (trimLeft_trimLeft _).trans hrest⟩
  rw [← hrest] at hnext
  rw [operations]
  split
  · rfl
  · next hsome =>
    rw [hnext] at hsome
    cases hsome

end

/-- Reading the suffixes of an operand has come to the tree `v`, and goes on at `rest`. -/
def Trails (nested : Parser Node) {cs : List Char} (r : Except Stuck (Parsed Node cs)) (v : Node)
    (rest : List Char) : Prop :=
  ∃ p : Parsed Node cs, p.value = v ∧ trimLeft p.rest = trimLeft rest ∧ r = trailers nested p

section

variable {nested : Parser Node} {r : Except Stuck (Parsed Node cs)} {v : Node}

theorem trails_first {p : Parser Node} (h : Finds (p cs) v rest) :
    Trails nested (p cs >>= trailers nested) v rest := by
  obtain ⟨q, hq, hvalue, hrest⟩ := h
  refine ⟨q, hvalue, hrest, ?_⟩
  rw [hq]
  rfl

theorem Trails.stop (h : Trails nested r v rest) (hstop : Stops 5 rest) : Finds r v rest := by
  obtain ⟨p, rfl, hrest, rfl⟩ := h
  refine ⟨p.skipBlanks, ?_, rfl, (trimLeft_trimLeft _).trans hrest⟩
  have hstop := hstop.front hrest
  rw [trailers]
  split
  · rfl
  · next c more hmore =>
    have hc : c ≠ '(' ∧ c ≠ '.' ∧ c ≠ '[' := by
      obtain hnil | ⟨m, rest', hm, hrank⟩ := hstop
      · rw [hnil] at hmore
        cases hmore
      · have hspelling := spelling_of_token? hm
        rw [hmore] at hspelling
        cases m <;> first | exact absurd hrank (by decide) | (cases hspelling; decide)
    dsimp only
    rw [if_neg hc.1, if_neg hc.2.1, if_neg hc.2.2]

theorem Trails.call {as : Arguments} (h : Trails nested r v mid)
    (hopen : trimLeft mid = '(' :: text)
    {p : Parsed Arguments text} (hp : orEmpty ')' ⟨[], []⟩ (arguments nested ⟨[], []⟩) text = .ok p)
    (hvalue : p.value = as) (hrest : trimLeft p.rest = trimLeft rest) :
    Trails nested r (.call v as.positional as.keywords) rest := by
  obtain ⟨base, rfl, hmid, rfl⟩ := h
  rw [trailers]
  split
  · next hnil => cases hnil.symm.trans (hmid.trans hopen)
  · next c more hmore =>
    cases hmore.symm.trans (hmid.trans hopen)
    dsimp only
    rw [if_pos rfl, hp]
    subst hvalue
    exact ⟨_, rfl, hrest, rfl⟩

theorem Trails.member {s : String} (h : Trails nested r v mid) (hdot : trimLeft mid = '.' :: text)
    (hname : name? (trimLeft text) = some (s, rest)) : Trails nested r (.member v s) rest := by
  obtain ⟨base, rfl, hmid, rfl⟩ := h
  rw [trailers]
  split
  · next hnil => cases hnil.symm.trans (hmid.trans hdot)
  · next c more hmore =>
    cases hmore.symm.trans (hmid.trans hdot)
    dsimp only
    rw [if_neg (by decide), if_pos rfl]
    split
    · next s' rest' hname' =>
      cases hname'.symm.trans hname
      exact ⟨_, rfl, rfl, rfl⟩
    · next hnone => cases hnone.symm.trans hname

theorem closeWith_of_trimLeft {α : Type} {cs rest : List Char} {c : Char} {p : Parsed α cs}
    (h : trimLeft p.rest = c :: rest) :
    ∃ q, closeWith c p = .ok q ∧ q.value = p.value ∧ q.rest = rest := by
  unfold closeWith
  split
  · next hnil => cases hnil.symm.trans h
  · next d more hmore =>
    cases hmore.symm.trans h
    rw [if_pos rfl]
    exact ⟨_, rfl, rfl, rfl⟩

theorem Trails.subscript {i : Node} {inner : List Char} (h : Trails nested r v mid)
    (hopen : trimLeft mid = '[' :: text) (hi : Finds (nested text) i inner)
    (hclose : trimLeft inner = ']' :: rest) : Trails nested r (.subscript v i) rest := by
  obtain ⟨base, rfl, hmid, rfl⟩ := h
  obtain ⟨p, hp, rfl, hinner⟩ := hi
  obtain ⟨q, hq, hvalue, rfl⟩ := closeWith_of_trimLeft (hinner.trans hclose)
  rw [trailers]
  split
  · next hnil => cases hnil.symm.trans (hmid.trans hopen)
  · next c more hmore =>
    cases hmore.symm.trans (hmid.trans hopen)
    dsimp only
    rw [if_neg (by decide), if_neg (by decide), if_pos rfl, hp, ok_bind, hq, ok_bind]
    exact ⟨_, congrArg (Node.subscript base.value) hvalue, rfl, rfl⟩

end

/-! ## Reading operands -/

theorem orEmpty_of_close {α : Type} {close : Char} {empty : α} {inner : Parser α}
    (h : trimLeft cs = close :: rest) :
    ∃ q, orEmpty close empty inner cs = .ok q ∧ q.value = empty ∧ q.rest = rest := by
  unfold orEmpty
  split
  · next hnil => cases hnil.symm.trans h
  · next c more hmore =>
    cases hmore.symm.trans h
    rw [if_pos rfl]
    exact ⟨_, rfl, rfl, rfl⟩

theorem orEmpty_of_inner {α : Type} (close : Char) (empty : α) {inner : Parser α}
    {ds : List Char} (hcs : trimLeft cs = ds) (hds : ∀ more, ds ≠ close :: more)
    {p : Parsed α ds} (hp : inner ds = .ok p) :
    ∃ q, orEmpty close empty inner cs = .ok q ∧ q.value = p.value ∧ q.rest = p.rest := by
  unfold orEmpty
  split
  · next hnil =>
    obtain rfl := hnil.symm.trans hcs
    rw [hp]
    exact ⟨_, rfl, rfl, rfl⟩
  · next c more hmore =>
    obtain rfl := hmore.symm.trans hcs
    rw [if_neg (by rintro rfl; exact hds more rfl), hp]
    exact ⟨_, rfl, rfl, rfl⟩

section

variable {nested : Parser Node}

theorem primary_of_number {x : Float} (h : token? (trimLeft cs) = some (.number x, rest)) :
    Finds (primary nested cs) (.number x) rest := by
  obtain ⟨hn, hx, hrest⟩ | ⟨_, _, _, _, _, _, ht⟩ | ⟨_, _, ht⟩ | ⟨_, _, _, ht⟩ := token?_cases h
  · injection hx with hx
    unfold primary
    split
    · next hnil =>
      rw [hnil] at hn
      cases hn
    · next c more hmore =>
      rw [hmore] at hn hx hrest
      dsimp only
      rw [dif_pos hn]
      exact ⟨_, rfl, congrArg Node.number hx.symm, congrArg trimLeft hrest.symm⟩
  all_goals cases ht

theorem primary_of_text {s : String} (h : token? (trimLeft cs) = some (.text s, rest)) :
    Finds (primary nested cs) (.text s) rest := by
  obtain ⟨_, ht, _⟩ | ⟨q, body, t, hq, hcs, hbody, ht⟩ | ⟨_, _, ht⟩ | ⟨_, _, _, ht⟩ :=
    token?_cases h
  all_goals cases ht
  unfold primary
  split
  · next hnil => cases hnil.symm.trans hcs
  · next c more hmore =>
    cases hmore.symm.trans hcs
    dsimp only
    rw [dif_neg (Bool.eq_false_iff.mp (startsNumber_quote hq _)), if_pos hq]
    split
    · next body' rest' hbody' =>
      cases hbody'.symm.trans hbody
      exact ⟨_, rfl, rfl, rfl⟩
    · next hnone => cases hnone.symm.trans hbody

theorem primary_of_name {s : String} (h : token? (trimLeft cs) = some (.name s, rest)) :
    Finds (primary nested cs) (.name s) rest := by
  have hname := token?_name_iff.mp h
  obtain ⟨d, ds, hcs, hd, -⟩ := name?_eq_some_iff.mp hname
  unfold primary
  split
  · next hnil => cases hnil.symm.trans hcs
  · next c more hmore =>
    cases hmore.symm.trans hcs
    dsimp only
    rw [dif_neg (Bool.eq_false_iff.mp (startsNumber_name hd _)),
      if_neg (not_or.mpr ⟨ne_of_startsName hd (by decide), ne_of_startsName hd (by decide)⟩),
      if_neg (ne_of_startsName hd (by decide)), if_neg (ne_of_startsName hd (by decide))]
    rw [hmore] at hname
    split
    · next s' rest' hname' =>
      cases hname'.symm.trans hname
      exact ⟨_, rfl, rfl, rfl⟩
    · next hnone => cases hnone.symm.trans hname

theorem primary_of_parens {v : Node} (hopen : trimLeft cs = '(' :: text)
    (h : Finds (nested text) v mid) (hclose : trimLeft mid = ')' :: rest) :
    Finds (primary nested cs) v rest := by
  obtain ⟨p, hp, rfl, hmid⟩ := h
  unfold primary
  split
  · next hnil => cases hnil.symm.trans hopen
  · next c more hmore =>
    cases hmore.symm.trans hopen
    obtain ⟨q, hq, hvalue, rfl⟩ :=
      closeWith_of_trimLeft (p := p.within (Nat.le_of_lt (length_of_trimLeft hopen)))
        (hmid.trans hclose)
    have hn : startsNumber ('(' :: text) = false := startsNumber_eq_false (by decide) (by decide)
    dsimp only
    rw [dif_neg (Bool.eq_false_iff.mp hn), if_neg (by decide), if_pos rfl, hp]
    exact ⟨q, hq, hvalue, rfl⟩

theorem primary_of_list {vs : List Node} (hopen : trimLeft cs = '[' :: text)
    {p : Parsed (List Node) text} (h : orEmpty ']' [] (items nested []) text = .ok p)
    (hvalue : p.value = vs) (hrest : p.rest = rest) :
    Finds (primary nested cs) (.list vs) rest := by
  unfold primary
  split
  · next hnil => cases hnil.symm.trans hopen
  · next c more hmore =>
    cases hmore.symm.trans hopen
    have hn : startsNumber ('[' :: text) = false := startsNumber_eq_false (by decide) (by decide)
    dsimp only
    rw [dif_neg (Bool.eq_false_iff.mp hn), if_neg (by decide), if_neg (by decide), if_pos rfl, h]
    exact ⟨_, rfl, congrArg Node.list hvalue, congrArg trimLeft hrest⟩

theorem items_of_close {found : List Node} {v : Node} (h : Finds (nested cs) v mid)
    (hclose : trimLeft mid = ']' :: rest) : ∃ p, items nested found cs = .ok p ∧
      p.value = found.reverse ++ [v] ∧ p.rest = rest := by
  obtain ⟨item, hitem, rfl, hmid⟩ := h
  rw [items, hitem, ok_bind]
  split
  · next hnil => cases hnil.symm.trans (hmid.trans hclose)
  · next c more hmore =>
    cases hmore.symm.trans (hmid.trans hclose)
    rw [if_neg (by decide), if_pos rfl]
    exact ⟨_, rfl, List.reverse_cons, rfl⟩

theorem items_of_comma {found vs : List Node} {v : Node} (h : Finds (nested cs) v mid)
    (hcomma : trimLeft mid = ',' :: text)
    (hmore : ∃ p, items nested (v :: found) text = .ok p ∧
      p.value = (v :: found).reverse ++ vs ∧ p.rest = rest) :
    ∃ p, items nested found cs = .ok p ∧ p.value = found.reverse ++ v :: vs ∧ p.rest = rest := by
  obtain ⟨item, hitem, rfl, hmid⟩ := h
  obtain ⟨all, hall, hvalue, hrest⟩ := hmore
  rw [items, hitem, ok_bind]
  split
  · next hnil => cases hnil.symm.trans (hmid.trans hcomma)
  · next c more hmore =>
    cases hmore.symm.trans (hmid.trans hcomma)
    rw [if_pos rfl, hall]
    refine ⟨_, rfl, ?_, hrest⟩
    change all.value = _
    rw [hvalue, List.reverse_cons, List.append_assoc]
    rfl

theorem argument_of_positional {found : Arguments} {v : Node} (hkey : keyword? cs = none)
    (hfound : found.keywords = []) (h : Finds (nested cs) v rest) :
    Finds (argument nested found cs) ⟨v :: found.positional, []⟩ rest := by
  obtain ⟨p, hp, rfl, hrest⟩ := h
  unfold argument
  split
  · next hsome => cases hkey.symm.trans hsome
  · rw [hp, hfound]
    exact ⟨_, rfl, rfl, hrest⟩

theorem argument_of_keyword {found : Arguments} {k : String} {v : Node}
    (hkey : keyword? cs = some (k, text)) (hnew : k ∉ found.keywords.map Prod.fst)
    (h : Finds (nested text) v rest) :
    Finds (argument nested found cs) ⟨found.positional, (k, v) :: found.keywords⟩ rest := by
  obtain ⟨p, hp, rfl, hrest⟩ := h
  unfold argument
  split
  · next k' text' hsome =>
    cases hkey.symm.trans hsome
    rw [if_neg (by simpa using hnew), hp]
    exact ⟨_, rfl, rfl, hrest⟩
  · next hnone => cases hkey.symm.trans hnone

theorem arguments_of_close {found as : Arguments}
    (h : Finds (argument nested found (trimLeft cs)) as mid) (hclose : trimLeft mid = ')' :: rest) :
    ∃ p, arguments nested found cs = .ok p ∧
      p.value = ⟨as.positional.reverse, as.keywords.reverse⟩ ∧ p.rest = rest := by
  obtain ⟨arg, harg, rfl, hmid⟩ := h
  rw [arguments, harg, ok_bind]
  split
  · next hnil => cases hnil.symm.trans (hmid.trans hclose)
  · next c more hmore =>
    cases hmore.symm.trans (hmid.trans hclose)
    dsimp only
    rw [if_neg (by decide), if_pos rfl]
    exact ⟨_, rfl, rfl, rfl⟩

theorem arguments_of_comma {found as : Arguments}
    (h : Finds (argument nested found (trimLeft cs)) as mid) (hcomma : trimLeft mid = ',' :: text)
    {all : Parsed Arguments text} (hmore : arguments nested as text = .ok all) :
    ∃ p, arguments nested found cs = .ok p ∧ p.value = all.value ∧ p.rest = all.rest := by
  obtain ⟨arg, harg, rfl, hmid⟩ := h
  rw [arguments, harg, ok_bind]
  split
  · next hnil => cases hnil.symm.trans (hmid.trans hcomma)
  · next c more hmore' =>
    cases hmore'.symm.trans (hmid.trans hcomma)
    dsimp only
    rw [if_pos rfl, hmore]
    exact ⟨_, rfl, rfl, rfl⟩

variable {deeper : Parser Node}

theorem operandWith_of_sign {s : Sign} {v : Node} (hsign : sign? (trimLeft cs) = some (s, text))
    (h : Finds (deeper text) v rest) : Finds (operandWith nested deeper cs) (.signed s v) rest := by
  obtain ⟨p, hp, rfl, hrest⟩ := h
  unfold operandWith
  split
  · next s' text' hsome =>
    cases hsign.symm.trans hsome
    rw [hp]
    exact ⟨_, rfl, rfl, hrest⟩
  · next hnone => cases hsign.symm.trans hnone

theorem operandWith_of_base {v : Node} (hsign : sign? (trimLeft cs) = none)
    (h : Finds (primary nested cs >>= trailers nested) v rest)
    (hpower : power? (trimLeft rest) = none) : Finds (operandWith nested deeper cs) v rest := by
  obtain ⟨p, hp, rfl, hrest⟩ := h
  obtain ⟨first, hfirst, hp⟩ := bind_ok_iff.mp hp
  unfold operandWith
  split
  · next hsome => cases hsign.symm.trans hsome
  · rw [hfirst, ok_bind, hp, ok_bind]
    split
    · next hsome => cases hsome.symm.trans ((congrArg power? hrest).trans hpower)
    · exact ⟨p, rfl, rfl, hrest⟩

theorem operandWith_of_power {l v : Node} (hsign : sign? (trimLeft cs) = none)
    (h : Finds (primary nested cs >>= trailers nested) l mid)
    (hpower : power? (trimLeft mid) = some text) (hv : Finds (deeper text) v rest) :
    Finds (operandWith nested deeper cs) (.binary .pow l v) rest := by
  obtain ⟨p, hp, rfl, hmid⟩ := h
  obtain ⟨first, hfirst, hp⟩ := bind_ok_iff.mp hp
  obtain ⟨q, hq, rfl, hrest⟩ := hv
  unfold operandWith
  split
  · next hsome => cases hsign.symm.trans hsome
  · rw [hfirst, ok_bind, hp, ok_bind]
    split
    · next text' hsome =>
      cases hsome.symm.trans ((congrArg power? hmid).trans hpower)
      rw [hq]
      exact ⟨_, rfl, rfl, hrest⟩
    · next hnone => cases hnone.symm.trans ((congrArg power? hmid).trans hpower)

end

end

end TickBacktest.Expression
