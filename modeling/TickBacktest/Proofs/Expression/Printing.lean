import TickBacktest.Expression.Printer
import TickBacktest.Proofs.Expression.Completeness

/-! # Printed trees

How the printed text of a tree is read: the words it consists of are its tokens when a blank, a
comma or a closing parenthesis follows (`token?_number_append`, `token?_name_append`), and the text
is a phrase for the tree (`IsWritten`) if the texts of its parts are. Operations stand in
parentheses, so a tree takes at most two levels for each of its own. -/

namespace TickBacktest.Expression

open Text

/-! ## Words as they are printed -/

/-- A literal: finite, without a sign, and its shortest digits are read as the same number. -/
structure Literal (x : Float) : Prop where
  finite : ∃ m e, Decimal.Binary.ofFloat x = .finite false m e
  readsBack : Decimal.float? (Decimal.plainChars x) = some x

/-- A text that is a name. -/
def Identifier (s : String) : Prop :=
  ∃ c cs, s.toList = c :: cs ∧ startsName c = true ∧ ∀ d ∈ cs, continuesName d = true

/-- What follows a printed tree: nothing, a blank, a closing parenthesis or a comma. -/
def Ends (rest : List Char) : Prop := ∀ c ∈ rest.head?, c = ' ' ∨ c = ')' ∨ c = ','

theorem ends_nil : Ends [] := fun c hc => (by cases hc)

theorem ends_cons {c : Char} (h : c = ' ' ∨ c = ')' ∨ c = ',') (cs : List Char) :
    Ends (c :: cs) := by
  intro d hd
  cases hd
  exact h

section

variable {cs rest : List Char}

theorem trimLeft_cons {c : Char} (hc : isBlank c = false) (cs : List Char) :
    trimLeft (c :: cs) = c :: cs :=
  List.dropWhile_cons_of_neg (by simp [hc])

theorem trimLeft_blank (cs : List Char) : trimLeft (' ' :: cs) = trimLeft cs :=
  List.dropWhile_cons_of_pos (by decide)

theorem trimLeft_spelling (m : Mark) (rest : List Char) :
    trimLeft (m.spelling ++ rest) = m.spelling ++ rest := by
  cases m <;> exact trimLeft_cons (by decide) _

/-- No name starts with a blank. -/
theorem startsName_of_blankRanges : ∀ r ∈ blankRanges, ∀ k ∈ List.range' r.1 (r.2 + 1 - r.1),
    startsName (Char.ofNat k) = false := by
  decide +kernel

theorem isBlank_of_startsName {c : Char} (h : startsName c = true) : isBlank c = false := by
  by_contra hb
  obtain ⟨r, hr, hlo, hhi⟩ := Ranges.has_iff.mp (by simpa [isBlank] using hb)
  have hk := startsName_of_blankRanges r hr c.toNat (List.mem_range'_1.mpr ⟨hlo, by omega⟩)
  rw [Char.ofNat_toNat, h] at hk
  cases hk

theorem token?_mark_of_blank {m : Mark} (hdot : m ≠ .dot) (rest : List Char) :
    token? (trimLeft (m.spelling ++ ' ' :: rest)) = some (.mark m, ' ' :: rest) := by
  rw [trimLeft_spelling]
  refine token?_mark (startsNumber_mark hdot _) (mark?_eq_some_iff.mpr ⟨rfl, ?_⟩)
  rintro c hc hhead
  cases hhead
  cases m <;> cases hc

theorem token?_name_append {s : String} (hs : Identifier s)
    (hrest : ∀ c ∈ rest.head?, continuesName c = false) :
    token? (trimLeft (s.toList ++ rest)) = some (.name s, rest) := by
  obtain ⟨c, cs, hcs, hc, hall⟩ := hs
  rw [hcs, List.cons_append, trimLeft_cons (isBlank_of_startsName hc)]
  refine token?_name (name?_eq_some_iff.mpr ⟨c, cs ++ rest, rfl, hc, ?_, ?_⟩)
  · rw [takeWhile_run hall hrest, ← hcs, String.ofList_toList]
  · rw [dropWhile_run hall hrest]

/-- A printed number is taken as it stands. -/
theorem number_append {w : List Char} (hw : Mantissa w) (hrest : Ends rest) :
    (number (w ++ rest)).2 = rest := by
  have hend : Unmantissa rest := by
    intro c hc
    obtain rfl | rfl | rfl := hrest c hc <;> exact ⟨by decide, by decide⟩
  have hexponent : exponentPart rest = (0, rest) := by
    rcases rest with _ | ⟨c, cs⟩
    · rfl
    · obtain rfl | rfl | rfl := hrest c rfl <;> rfl
  have hparts : (fractionPart ((w ++ rest).dropWhile Decimal.isDigit)).2 = rest := by
    obtain ⟨hds, -⟩ | ⟨hds, hfs, -⟩ := hw
    · rw [(parts_whole hds hend).2]
    · rw [(parts_point hds hfs hend).2]
  calc (number (w ++ rest)).2
      = (exponentPart (fractionPart ((w ++ rest).dropWhile Decimal.isDigit)).2).2 := rfl
    _ = rest := by rw [hparts, hexponent]

theorem token?_number_append {x : Float} (hx : Literal x) (hrest : Ends rest) :
    token? (trimLeft (Decimal.plainChars x ++ rest)) = some (.number x, rest) := by
  obtain ⟨⟨m, e, hfinite⟩, hread⟩ := hx
  have hw := mantissa_plainChars hfinite
  have hn := startsNumber_of_mantissa hw rest
  have htrim : trimLeft (Decimal.plainChars x ++ rest) = Decimal.plainChars x ++ rest := by
    obtain ⟨c, cs, hcs, hc⟩ := head_of_mantissa hw
    rw [hcs]
    refine trimLeft_cons ?_ _
    rcases hc with hc | rfl
    · by_contra hb
      rw [isDigit_of_isBlank (by simpa using hb)] at hc
      cases hc
    · decide
  obtain ⟨m', e', hsplit, -, -, hvalue⟩ := number_spec hn
  rw [number_append hw hrest] at hsplit
  rw [← List.append_cancel_right hsplit, hread] at hvalue
  rw [htrim, token?_number hn, number_append hw hrest, ← Option.some.inj hvalue]

end

/-! ## Marks as they are printed -/

/-- The mark that an operator is printed as. -/
def Operator.mark : Operator → Mark
  | add => .plus
  | sub => .minus
  | mul => .star
  | div => .slash
  | pow => .caret
  | mod => .percent
  | floorDiv => .doubleSlash

def Sign.mark : Sign → Mark
  | minus => .minus
  | plus => .plus

def Comparison.mark : Comparison → Mark
  | gt => .above
  | lt => .below
  | ge => .atLeast
  | le => .atMost
  | eq => .same
  | ne => .different

theorem Operator.spelling_mark (op : Operator) : op.mark.spelling = op.symbol.toList := by
  cases op <;> rfl

theorem Sign.spelling_mark (s : Sign) : s.mark.spelling = s.symbol.toList := by
  cases s <;> rfl

theorem Comparison.spelling_mark (op : Comparison) : op.mark.spelling = op.symbol.toList := by
  cases op <;> rfl

theorem Sign.sign?_mark (s : Sign) : s.mark.sign? = some s := by cases s <;> rfl

theorem Comparison.comparison?_mark (op : Comparison) : op.mark.comparison? = some op := by
  cases op <;> rfl

/-! ## Printed trees -/

/-- A tree that is no comparison, which stands in parentheses as an operand. -/
def Node.IsOperand (n : Node) : Prop := ∀ first links, n ≠ .compare first links

/-- The printed text of a tree is a phrase for the tree that takes at most `N` levels as an
operand. -/
structure IsWritten (n : Node) (N : ℕ) : Prop where
  comparison : ∀ {rest : List Char}, Ends rest →
    Reads (.comparison n) (N + 1) (n.print ++ rest) rest
  unary : n.IsOperand → ∀ {rest : List Char}, Ends rest →
    Reads (.unary n) N (n.print ++ rest) rest
  suffixed : n.IsOperand → (∀ s m, n ≠ .signed s m) → ∀ {rest : List Char}, Ends rest →
    Reads (.suffixed n) N (n.print ++ rest) rest

theorem isWritten_of_suffixed {n : Node} {N : ℕ} (h : ∀ {rest : List Char}, Ends rest →
    Reads (.suffixed n) N (n.print ++ rest) rest) : IsWritten n N :=
  ⟨fun hrest => (h hrest).unary.sum.comparison, fun _ _ hrest => (h hrest).unary,
    fun _ _ _ hrest => h hrest⟩

section

variable {N : ℕ} {rest : List Char}

theorem isWritten_number {x : Float} (hx : Literal x) : IsWritten (.number x) N := by
  refine isWritten_of_suffixed fun {rest} hrest => ?_
  exact reads_single (token?_number_append hx hrest) (.suffixedOfPrimary .number)

theorem name_reads {s : String} (hs : Identifier s)
    (hrest : ∀ c ∈ rest.head?, continuesName c = false) :
    Reads (.suffixed (.name s)) N (s.toList ++ rest) rest :=
  reads_single (token?_name_append hs hrest) (.suffixedOfPrimary .name)

theorem isWritten_name {s : String} (hs : Identifier s) : IsWritten (.name s) N := by
  refine isWritten_of_suffixed fun {rest} hrest => name_reads hs fun c hc => ?_
  obtain rfl | rfl | rfl := hrest c hc <;> decide

/-- An operation between its parentheses. -/
theorem operation_reads {op : Operator} {l r : Node} (hop : op ≠ .floorDiv)
    (hpow : op = .pow → ∀ s n, l ≠ .signed s n) (hl : IsWritten l N) (hlo : l.IsOperand)
    (hr : IsWritten r N) (hro : r.IsOperand) (rest : List Char) :
    Reads (.sum (.binary op l r)) (N + 1)
      (l.print ++ ' ' :: (op.symbol.toList ++ ' ' :: (r.print ++ ')' :: rest))) (')' :: rest) := by
  have hmark : token? (trimLeft (' ' :: (op.symbol.toList ++ ' ' :: (r.print ++ ')' :: rest)))) =
      some (.mark op.mark, ' ' :: (r.print ++ ')' :: rest)) := by
    rw [trimLeft_blank, ← op.spelling_mark]
    exact token?_mark_of_blank (by cases op <;> decide) _
  have hright : Reads (.unary r) N (' ' :: (r.print ++ ')' :: rest)) (')' :: rest) :=
    (hr.unary hro (ends_cons (.inr (.inl rfl)) rest)).front (trimLeft_blank _)
  have hends : Ends (' ' :: (op.symbol.toList ++ ' ' :: (r.print ++ ')' :: rest))) :=
    ends_cons (.inl rfl) _
  have hleft := hl.unary hlo hends
  cases op
  case floorDiv => exact absurd rfl hop
  case pow =>
    have hbase := (hl.suffixed hlo (hpow rfl) hends).mono (Nat.le_succ N)
    exact (hbase.power hmark rfl hright (Nat.lt_succ_self N)).sum
  case add | sub =>
    exact (hleft.sum.infixed hmark (hright.map .termOfUnary) (.sum rfl)).mono (Nat.le_succ N)
  case mul | div | mod =>
    exact (((hleft.map .termOfUnary).infixed hmark hright (.term rfl)).map .sumOfTerm).mono
      (Nat.le_succ N)

theorem isWritten_binary {op : Operator} {l r : Node} (hop : op ≠ .floorDiv)
    (hpow : op = .pow → ∀ s n, l ≠ .signed s n) (hl : IsWritten l N) (hlo : l.IsOperand)
    (hr : IsWritten r N) (hro : r.IsOperand) : IsWritten (.binary op l r) (N + 2) := by
  refine isWritten_of_suffixed fun {rest} hrest => ?_
  have hinner := (operation_reads hop hpow hl hlo hr hro rest).comparison
  have hprint : (Node.binary op l r).print ++ rest =
      '(' :: (l.print ++ ' ' :: (op.symbol.toList ++ ' ' :: (r.print ++ ')' :: rest))) := by
    simp [Node.print]
  rw [hprint]
  exact (hinner.parens (trimLeft_cons (by decide) _) (trimLeft_cons (by decide) rest)).map
    .suffixedOfPrimary

theorem isWritten_signed {s : Sign} {n : Node} (hn : IsWritten n N) (hno : n.IsOperand) :
    IsWritten (.signed s n) (N + 1) := by
  have hunary : ∀ {rest : List Char}, Ends rest →
      Reads (.unary (.signed s n)) (N + 1) ((Node.signed s n).print ++ rest) rest := by
    intro rest hrest
    rw [Node.print, List.append_assoc, ← s.spelling_mark]
    exact Reads.signed (token?_at s.mark (trimLeft_spelling _ _) (by cases s <;> decide)
      (by cases s <;> rfl)) s.sign?_mark (hn.unary hno hrest)
  exact ⟨fun hrest => (hunary hrest).sum.comparison, fun _ _ hrest => hunary hrest,
    fun _ h => absurd rfl (h s n)⟩

/-- The links of a comparison. -/
theorem printedLinks_read {links : List (Comparison × Node)}
    (hlinks : ∀ p ∈ links, IsWritten p.2 N ∧ p.2.IsOperand) (hrest : Ends rest) :
    Reads (.links links) N (Node.printLinks links ++ rest) rest ∧
      Ends (Node.printLinks links ++ rest) := by
  induction links with
  | nil => exact ⟨reads_noLinks, hrest⟩
  | cons p links ih =>
    obtain ⟨op, n⟩ := p
    obtain ⟨⟨hn, hno⟩, hlinks⟩ := List.forall_mem_cons.mp hlinks
    obtain ⟨hreads, hends⟩ := ih hlinks
    have hprint : Node.printLinks ((op, n) :: links) ++ rest =
        ' ' :: (op.mark.spelling ++ ' ' :: (n.print ++ (Node.printLinks links ++ rest))) := by
      simp [Node.printLinks, op.spelling_mark]
    rw [hprint]
    refine ⟨Reads.link ?_ op.comparison?_mark ((hn.unary hno hends).sum.front (trimLeft_blank _))
      hreads, ends_cons (.inl rfl) _⟩
    rw [trimLeft_blank]
    exact token?_mark_of_blank (by cases op <;> decide) _

theorem isWritten_compare {first : Node} {links : List (Comparison × Node)}
    (hfirst : IsWritten first N) (hfo : first.IsOperand) (hne : links ≠ [])
    (hlinks : ∀ p ∈ links, IsWritten p.2 N ∧ p.2.IsOperand) :
    IsWritten (.compare first links) N := by
  have hchained : first.chained links = .compare first links := by
    obtain ⟨l, ls, rfl⟩ := List.exists_cons_of_ne_nil hne
    rfl
  refine ⟨fun {rest} hrest => ?_, fun h => absurd rfl (h first links),
    fun h => absurd rfl (h first links)⟩
  obtain ⟨hreads, hends⟩ := printedLinks_read hlinks hrest
  rw [Node.print, List.append_assoc, ← hchained]
  exact (hfirst.unary hfo hends).sum.chained hreads

theorem commaSeparated_cons {p : List Char} {ps : List (List Char)} (h : ps ≠ []) :
    Node.commaSeparated (p :: ps) = p ++ ',' :: ' ' :: Node.commaSeparated ps := by
  obtain ⟨q, qs, rfl⟩ := List.exists_cons_of_ne_nil h
  simp [Node.commaSeparated, List.intercalate]

/-- A printed argument as it stands in front of a comma or the closing parenthesis. -/
theorem commaSeparated_append (p : List Char) (ps : List (List Char)) (rest : List Char) :
    (ps = [] ∧ Node.commaSeparated (p :: ps) ++ ')' :: rest = p ++ ')' :: rest) ∨
    (ps ≠ [] ∧ Node.commaSeparated (p :: ps) ++ ')' :: rest =
      p ++ ',' :: ' ' :: (Node.commaSeparated ps ++ ')' :: rest)) := by
  by_cases h : ps = []
  · subst h
    exact .inl ⟨rfl, by simp [Node.commaSeparated, List.intercalate]⟩
  · refine .inr ⟨h, ?_⟩
    rw [commaSeparated_cons h, List.append_assoc]
    rfl

/-- Only a call without arguments has none to print. -/
theorem printed_eq_nil {args : List Node} {keywords : List (String × Node)}
    (h : Node.printList args ++ Node.printKeywords keywords = []) : args = [] ∧ keywords = [] := by
  obtain ⟨hargs, hkeywords⟩ := List.append_eq_nil_iff.mp h
  constructor
  · cases args
    · rfl
    · cases hargs
  · cases keywords
    · rfl
    · cases hkeywords

/-- No phrase starts with an equals sign. -/
theorem Reads.head?_ne {v : Node} {cs : List Char} (h : Reads (.comparison v) N cs rest) :
    cs.head? ≠ some '=' := by
  intro hhead
  obtain ⟨more, rfl⟩ := List.head?_eq_some_iff.mp hhead
  obtain ⟨n, -, ts, hd, hs⟩ := h
  obtain ⟨t, us, rfl, ht, -⟩ := hd.opens
  obtain ⟨mid, htoken, -⟩ := hs
  obtain ⟨m, r, hm, -⟩ := mark?_spelling .assign more
  change mark? ('=' :: more) = _ at hm
  rw [trimLeft_cons (by decide), token?_mark (startsNumber_eq_false (by decide) (by decide)) hm]
    at htoken
  cases htoken
  have hspelling := spelling_of_mark? hm
  obtain rfl | rfl | rfl | rfl := ht <;> cases hspelling

/-- A printed keyword with the value after it. -/
theorem keyword?_append {k : String} {v : Node} {cs : List Char} (hk : Identifier k)
    (h : Reads (.comparison v) N cs rest) :
    keyword? (trimLeft (k.toList ++ '=' :: cs)) = some (k, cs) := by
  refine keyword?_iff.mpr ⟨'=' :: cs, token?_name_append hk fun c hc => ?_, ?_⟩
  · cases hc
    decide
  · rw [trimLeft_cons (by decide)]
    refine token?_mark (startsNumber_eq_false (by decide) (by decide))
      (mark?_eq_some_iff.mpr ⟨rfl, fun c hc => ?_⟩)
    -- a second equals sign would make a comparison of it
    cases hc
    exact h.head?_ne

/-- A tree that takes fewer than `N` levels as an operand can be an argument. -/
def IsArgument (n : Node) (N : ℕ) : Prop := ∃ M < N, IsWritten n M

theorem IsArgument.reads {n : Node} (h : IsArgument n N) (hrest : Ends rest) :
    Reads (.comparison n) N (n.print ++ rest) rest := by
  obtain ⟨M, hM, hn⟩ := h
  exact (hn.comparison hrest).mono hM

/-- The keywords of a call. -/
theorem printedKeywords_read {keywords : List (String × Node)} (hne : keywords ≠ [])
    (hkeywords : ∀ p ∈ keywords, IsArgument p.2 N ∧ Identifier p.1)
    (hnodup : (keywords.map Prod.fst).Nodup) : Reads (.arguments [] keywords) N
      (Node.commaSeparated (Node.printKeywords keywords) ++ ')' :: rest) (')' :: rest) := by
  induction keywords with
  | nil => exact absurd rfl hne
  | cons p keywords ih =>
    obtain ⟨k, n⟩ := p
    obtain ⟨⟨hn, hk⟩, hkeywords⟩ := List.forall_mem_cons.mp hkeywords
    obtain ⟨hnew, hnodup⟩ := List.nodup_cons.mp hnodup
    rw [Node.printKeywords]
    obtain ⟨hnil, htext⟩ | ⟨hcons, htext⟩ := commaSeparated_append
      (k.toList ++ '=' :: n.print) (Node.printKeywords keywords) rest
    · obtain ⟨-, hkeywords⟩ := @printed_eq_nil [] keywords hnil
      have hvalue := hn.reads (ends_cons (.inr (.inl rfl)) rest)
      rw [htext, hkeywords, List.append_assoc, List.cons_append]
      exact Reads.keyword (keyword?_append hk hvalue) hvalue
    · have hkeywords' : keywords ≠ [] := by
        rintro rfl
        exact hcons rfl
      have hvalue := hn.reads (ends_cons (.inr (.inr rfl))
        (' ' :: (Node.commaSeparated (Node.printKeywords keywords) ++ ')' :: rest)))
      rw [htext, List.append_assoc, List.cons_append]
      exact Reads.keywords hnew (keyword?_append hk hvalue) hvalue (trimLeft_cons (by decide) _)
        ((ih hkeywords' hkeywords hnodup).front (trimLeft_blank _))

/-- The arguments of a call, if there are any. -/
theorem printedArguments_read {args : List Node} {keywords : List (String × Node)}
    (hne : Node.printList args ++ Node.printKeywords keywords ≠ [])
    (hargs : ∀ n ∈ args, IsArgument n N)
    (hkeywords : ∀ p ∈ keywords, IsArgument p.2 N ∧ Identifier p.1)
    (hnodup : (keywords.map Prod.fst).Nodup) : Reads (.arguments args keywords) N
      (Node.commaSeparated (Node.printList args ++ Node.printKeywords keywords) ++ ')' :: rest)
      (')' :: rest) := by
  induction args with
  | nil =>
    refine printedKeywords_read ?_ hkeywords hnodup
    rintro rfl
    exact hne rfl
  | cons n args ih =>
    obtain ⟨hn, hargs⟩ := List.forall_mem_cons.mp hargs
    rw [Node.printList, List.cons_append]
    obtain ⟨hnil, htext⟩ | ⟨hcons, htext⟩ := commaSeparated_append n.print
      (Node.printList args ++ Node.printKeywords keywords) rest
    · obtain ⟨hargs, hkeywords⟩ := printed_eq_nil hnil
      rw [htext, hargs, hkeywords]
      exact (hn.reads (ends_cons (.inr (.inl rfl)) rest)).map .positional
    · have hvalue := hn.reads (ends_cons (.inr (.inr rfl)) (' ' ::
        (Node.commaSeparated (Node.printList args ++ Node.printKeywords keywords) ++ ')' :: rest)))
      rw [htext]
      exact hvalue.infixed (token?_at .comma (trimLeft_cons (by decide) _))
        ((ih hcons hargs).front (trimLeft_blank _)) .positionals

theorem isWritten_call {s : String} {args : List Node} {keywords : List (String × Node)}
    (hs : Identifier s) (hargs : ∀ n ∈ args, IsArgument n N)
    (hkeywords : ∀ p ∈ keywords, IsArgument p.2 N ∧ Identifier p.1)
    (hnodup : (keywords.map Prod.fst).Nodup) :
    IsWritten (.call (.name s) args keywords) N := by
  refine isWritten_of_suffixed fun {rest} hrest => ?_
  have hname : ∀ cs, Reads (.suffixed (.name s)) N (s.toList ++ '(' :: cs) ('(' :: cs) := by
    refine fun cs => name_reads hs fun c hc => ?_
    cases hc
    decide
  have hopen : ∀ cs, trimLeft ('(' :: cs) = '(' :: cs := trimLeft_cons (by decide)
  have hclose : trimLeft (')' :: rest) = ')' :: rest := trimLeft_cons (by decide) rest
  have hprint : (Node.call (.name s) args keywords).print ++ rest =
      s.toList ++ '(' ::
        (Node.commaSeparated (Node.printList args ++ Node.printKeywords keywords) ++
          ')' :: rest) := by
    simp [Node.print]
  rw [hprint]
  by_cases hne : Node.printList args ++ Node.printKeywords keywords = []
  · obtain ⟨hargs, hkeywords⟩ := printed_eq_nil hne
    rw [hargs, hkeywords]
    exact (hname _).callEmpty (hopen _) hclose
  · exact (hname _).call (hopen _) (printedArguments_read hne hargs hkeywords hnodup) hclose

end

theorem IsWritten.mono {n : Node} {N M : ℕ} (h : IsWritten n N) (hN : N ≤ M) : IsWritten n M :=
  ⟨fun hrest => (h.comparison hrest).mono (Nat.succ_le_succ hN),
    fun ho _ hrest => (h.unary ho hrest).mono hN,
    fun ho hs _ hrest => (h.suffixed ho hs hrest).mono hN⟩

end TickBacktest.Expression
