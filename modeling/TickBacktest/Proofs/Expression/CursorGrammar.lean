import TickBacktest.Proofs.Expression.CursorTokens
import TickBacktest.Proofs.Expression.Grammar

/-! # Expressions at a cursor

Expressions as they are read at a cursor that moves through the bytes of a text, with a guard on
every move, on every look at the text and on every slice of it. Each part of the grammar does there
what it does on the characters that are left (`Follows`): it finds the same value and comes to the
byte where the rest of the text starts, or it fails with the same fault at the byte where the text
was unread. So no guard stops the cursor, whatever characters the text has, and a fault is told at
the end of a prefix of whole characters. -/

namespace TickBacktest.Expression

open Decimal Text

section

variable (text : List Char)

/-! ## Chains -/

/-- A chain of operations after its tree so far. -/
def operationsAt (next : ℕ → Reading (Option Operator × ℕ)) (operand : ℕ → Reading (Node × ℕ)) :
    ℕ → Node → ℕ → Reading (Node × ℕ)
  | 0, _, _ => .error (.overrun .endless)
  | fuel + 1, left, pos => do
    let (op, pos) ← next (← skip text pos)
    match op with
    | none => return (left, pos)
    | some op =>
      let (right, pos) ← operand pos
      operationsAt next operand fuel (.binary op left right) pos

/-- The links of a chain of comparisons, after those found so far, latest first. -/
def comparisonsAt (operand : ℕ → Reading (Node × ℕ)) :
    ℕ → List (Comparison × Node) → ℕ → Reading (List (Comparison × Node) × ℕ)
  | 0, _, _ => .error (.overrun .endless)
  | fuel + 1, found, pos => do
    let (op, pos) ← comparisonAt text (← skip text pos)
    match op with
    | none => return (found.reverse, pos)
    | some op =>
      let (right, pos) ← operand pos
      comparisonsAt operand fuel ((op, right) :: found) pos

/-- A chain of products over operands. -/
def termAt (operand : ℕ → Reading (Node × ℕ)) (pos : ℕ) : Reading (Node × ℕ) := do
  let (first, pos) ← operand pos
  operationsAt text (productAt text) operand (text.length + 1) first pos

/-- A chain of sums over operands. -/
def sumAt (operand : ℕ → Reading (Node × ℕ)) (pos : ℕ) : Reading (Node × ℕ) := do
  let (first, pos) ← termAt text operand pos
  operationsAt text (plusOrMinusAt text .add .sub) (termAt text operand) (text.length + 1) first pos

/-- A chain of comparisons over operands. -/
def chainAt (operand : ℕ → Reading (Node × ℕ)) (pos : ℕ) : Reading (Node × ℕ) := do
  let (first, pos) ← sumAt text operand pos
  let (links, pos) ← comparisonsAt text (sumAt text operand) (text.length + 1) [] pos
  match links with
  | [] => return (first, pos)
  | l :: ls => return (.compare first (l :: ls), pos)

/-! ## Operands -/

/-- The items of a list, after those found so far, latest first. -/
def itemsAt (nested : ℕ → Reading (Node × ℕ)) :
    ℕ → List Node → ℕ → Reading (List Node × ℕ)
  | 0, _, _ => .error (.overrun .endless)
  | fuel + 1, found, pos => do
    let (item, pos) ← nested pos
    let pos ← skip text pos
    match ← peek text pos with
    | none => failAt pos (.expectedEither ',' ']' none)
    | some c =>
      if c = ',' then itemsAt nested fuel (item :: found) (← advance text pos).2
      else if c = ']' then return ((item :: found).reverse, (← advance text pos).2)
      else failAt pos (.expectedEither ',' ']' (some c))

/-- One argument after those found so far, latest first. What is wrong with it is told at its
start. -/
def argumentAt (nested : ℕ → Reading (Node × ℕ)) (found : Arguments) (start : ℕ) :
    Reading (Arguments × ℕ) := do
  match ← keywordAt text start with
  | some w =>
    let pos ← expectAt text '=' (← seat text (start + utf8Length w))
    if found.keywords.any (·.1 = String.ofList w) then
      failAt start (.repeatedKeyword (String.ofList w))
    else
      let (v, pos) ← nested pos
      return (⟨found.positional, (String.ofList w, v) :: found.keywords⟩, pos)
  | none =>
    let (v, pos) ← nested start
    if found.keywords.isEmpty then return (⟨v :: found.positional, []⟩, pos)
    else failAt start .positionalAfterKeyword

/-- The arguments of a call, after those found so far, latest first. -/
def argumentsAt (nested : ℕ → Reading (Node × ℕ)) :
    ℕ → Arguments → ℕ → Reading (Arguments × ℕ)
  | 0, _, _ => .error (.overrun .endless)
  | fuel + 1, found, pos => do
    let (found, pos) ← argumentAt text nested found (← skip text pos)
    let pos ← skip text pos
    match ← peek text pos with
    | none => failAt pos (.expectedEither ',' ')' none)
    | some c =>
      if c = ',' then argumentsAt nested fuel found (← advance text pos).2
      else if c = ')' then
        return (⟨found.positional.reverse, found.keywords.reverse⟩, (← advance text pos).2)
      else failAt pos (.expectedEither ',' ')' (some c))

/-- Nothing up to the closing parenthesis or bracket, or what `inner` reads. -/
def orEmptyAt {α : Type} (close : Char) (empty : α) (inner : ℕ → Reading (α × ℕ)) (pos : ℕ) :
    Reading (α × ℕ) := do
  let pos ← skip text pos
  if (← peek text pos) = some close then return (empty, (← advance text pos).2) else inner pos

/-- A number, a quoted text, a name, a list, or an expression in parentheses. A point is a number
if the character after it is a digit. -/
def primaryAt (nested : ℕ → Reading (Node × ℕ)) (pos : ℕ) : Reading (Node × ℕ) := do
  let pos ← skip text pos
  match ← peek text pos with
  | none => failAt pos .unexpectedEnd
  | some c =>
    if isDigit c then
      let (x, pos) ← numberAt text pos
      return (.number x, pos)
    else if c = '.' then
      if ((← remaining text pos)[1]?).any isDigit then
        let (x, pos) ← numberAt text pos
        return (.number x, pos)
      else failAt pos (.unexpected '.')
    else if c = '"' ∨ c = '\x27' then
      let (s, pos) ← stringAt text c pos
      return (.text s, pos)
    else if c = '(' then
      let (inner, pos) ← nested (← advance text pos).2
      return (inner, ← expectAt text ')' pos)
    else if c = '[' then
      let (vs, pos) ←
        orEmptyAt text ']' [] (itemsAt text nested (text.length + 1) []) (← advance text pos).2
      return (.list vs, pos)
    else
      match ← nameAt text pos with
      | some _ =>
        let (name, pos) ← identifierAt text pos
        return (.name name, pos)
      | none => failAt pos (.unexpected c)

/-- The calls, attributes and subscripts that follow an operand. -/
def trailersAt (nested : ℕ → Reading (Node × ℕ)) : ℕ → Node → ℕ → Reading (Node × ℕ)
  | 0, _, _ => .error (.overrun .endless)
  | fuel + 1, base, pos => do
    let pos ← skip text pos
    match ← peek text pos with
    | none => return (base, pos)
    | some c =>
      if c = '(' then
        let (args, pos) ← orEmptyAt text ')' ⟨[], []⟩
          (argumentsAt text nested (text.length + 1) ⟨[], []⟩) (← advance text pos).2
        trailersAt nested fuel (.call base args.positional args.keywords) pos
      else if c = '.' then
        let (field, pos) ← identifierAt text (← advance text pos).2
        trailersAt nested fuel (.member base field) pos
      else if c = '[' then
        let (inner, pos) ← nested (← advance text pos).2
        trailersAt nested fuel (.subscript base inner) (← expectAt text ']' pos)
      else return (base, pos)

/-- An operand, perhaps raised to a power. -/
def operandAt (nested deeper : ℕ → Reading (Node × ℕ)) (pos : ℕ) : Reading (Node × ℕ) := do
  let (sign, pos) ← plusOrMinusAt text Sign.plus .minus (← skip text pos)
  match sign with
  | some sign =>
    let (v, pos) ← deeper pos
    return (.signed sign v, pos)
  | none =>
    let (first, pos) ← primaryAt text nested pos
    let (base, pos) ← trailersAt text nested (text.length + 1) first pos
    let (power, pos) ← powerAt text (← skip text pos)
    match power with
    | some _ =>
      let (v, pos) ← deeper pos
      return (.binary .pow base v, pos)
    | none => return (base, pos)

/-! ## Levels -/

/-- The readers that nest, for one nesting budget. -/
structure GrammarAt where
  comparison : ℕ → Reading (Node × ℕ)
  operand : ℕ → Reading (Node × ℕ)

/-- The reader that has no budget left. -/
def exhaustedAt (pos : ℕ) : Reading (Node × ℕ) := failAt pos .tooComplex

/-- The readers for a nesting budget. -/
def grammarAt : ℕ → GrammarAt
  | 0 => ⟨exhaustedAt, operandAt text exhaustedAt exhaustedAt⟩
  | n + 1 =>
    let inner := grammarAt n
    let comparison := chainAt text inner.operand
    ⟨comparison, operandAt text comparison inner.operand⟩

/-- Reads a whole text from its first byte on. -/
def parseAt : Reading Node := do
  let pos ← skip text 0
  if utf8Length text ≤ pos then failAt pos .emptyExpression
  else
    let (v, pos) ← (grammarAt text maxNesting).comparison pos
    let pos ← skip text pos
    if pos < utf8Length text then failAt pos (.trailing (← remaining text pos))
    else return v

end

/-! ## Agreement -/

/-- What is found on the characters that are left is found at the cursor, which comes to the
characters left after it; and a fault is told at the byte where the text was unread. -/
inductive Agrees (text : List Char) {α : Type} {cs : List Char} :
    Except Stuck (Parsed α cs) → Reading (α × ℕ) → Prop where
  | found {v : α} {rest : List Char} {hrest : rest.length < cs.length} {pos : ℕ}
      (h : At text pos rest) : Agrees text (.ok ⟨v, rest, hrest⟩) (.ok (v, pos))
  | stuck {fault : SyntaxFault} {rest : List Char} {pos : ℕ} (h : At text pos rest) :
      Agrees text (.error ⟨fault, rest⟩) (failAt pos fault)

/-- A reader at the cursor does what a parser does on the characters there. -/
def Follows (text : List Char) {α : Type} (p : Parser α) (g : ℕ → Reading (α × ℕ)) : Prop :=
  ∀ {pos : ℕ} {cs : List Char}, At text pos cs → Agrees text (p cs) (g pos)

section

variable {text : List Char} {α β : Type} {cs ds : List Char}

/-- Agreement goes on from what is found. -/
theorem Agrees.bind_of_ok {x : Except Stuck (Parsed α cs)} {g : Reading (α × ℕ)}
    {f : Parsed α cs → Except Stuck (Parsed β ds)} {k : α × ℕ → Reading (β × ℕ)}
    (h : Agrees text x g)
    (hk : ∀ (p : Parsed α cs) (pos : ℕ), x = .ok p → At text pos p.rest →
      Agrees text (f p) (k (p.value, pos))) : Agrees text (x >>= f) (g >>= k) := by
  cases h with
  | found h => exact hk _ _ rfl h
  | stuck h => exact .stuck h

theorem Agrees.bind {x : Except Stuck (Parsed α cs)} {g : Reading (α × ℕ)}
    {f : Parsed α cs → Except Stuck (Parsed β ds)} {k : α × ℕ → Reading (β × ℕ)}
    (h : Agrees text x g)
    (hk : ∀ (p : Parsed α cs) (pos : ℕ), At text pos p.rest →
      Agrees text (f p) (k (p.value, pos))) : Agrees text (x >>= f) (g >>= k) :=
  h.bind_of_ok fun p pos _ => hk p pos

/-- A find in a part of the characters is one in all of them. -/
theorem Agrees.within {x : Except Stuck (Parsed α ds)} {g : Reading (α × ℕ)}
    (h : Agrees text x g) (hle : ds.length ≤ cs.length) :
    @Agrees text α cs (x >>= fun p => .ok (p.within hle)) g := by
  cases h with
  | found h => exact .found h
  | stuck h => exact .stuck h

/-! ### Chains -/

section

variable {next : List Char → Option (Operator × List Char)}
  {shorter : ∀ {cs op rest}, next cs = some (op, rest) → rest.length < cs.length}
  {operand : Parser Node} {nextAt : ℕ → Reading (Option Operator × ℕ)}
  {operandAt : ℕ → Reading (Node × ℕ)}

theorem agrees_operations
    (hnext : ∀ {pos : ℕ} {cs : List Char}, At text pos cs → Meets text pos (next cs) (nextAt pos))
    (hoperand : Follows text operand operandAt) {left : Parsed Node cs} {pos fuel : ℕ}
    (h : At text pos left.rest) (hfuel : left.rest.length < fuel) :
    Agrees text (operations next shorter operand left)
      (operationsAt text nextAt operandAt fuel left.value pos) := by
  induction fuel generalizing left pos with
  | zero => exact absurd hfuel (Nat.not_lt_zero _)
  | succ fuel ih =>
    obtain ⟨mid, hskip, hmid⟩ := skip_of_at h
    have hmeets := hnext hmid
    rw [operationsAt, operations, hskip, ok_bind]
    split
    · next hnone =>
      rw [hnone] at hmeets
      rw [hmeets]
      exact .found hmid
    · next op rest hsome =>
      rw [hsome] at hmeets
      obtain ⟨pos', hrun, h'⟩ := hmeets
      -- The fuel lasts, because what is left gets shorter with every operand.
      have hshorter := shorter hsome
      have htrim := length_trimLeft_le left.rest
      rw [hrun, ok_bind]
      refine (hoperand h').bind fun right pos'' h'' => ih h'' ?_
      have hright : right.rest.length < rest.length := right.shorter
      change right.rest.length < fuel
      omega

theorem agrees_comparisons (hoperand : Follows text operand operandAt)
    {found : Parsed (List (Comparison × Node)) cs} {pos fuel : ℕ}
    (h : At text pos found.rest) (hfuel : found.rest.length < fuel) :
    Agrees text (comparisons operand found)
      (comparisonsAt text operandAt fuel found.value pos) := by
  induction fuel generalizing found pos with
  | zero => exact absurd hfuel (Nat.not_lt_zero _)
  | succ fuel ih =>
    obtain ⟨mid, hskip, hmid⟩ := skip_of_at h
    have hmeets := comparisonAt_of_at hmid
    rw [comparisonsAt, comparisons, hskip, ok_bind]
    split
    · next hnone =>
      rw [hnone] at hmeets
      rw [hmeets]
      exact .found hmid
    · next op rest hsome =>
      rw [hsome] at hmeets
      obtain ⟨pos', hrun, h'⟩ := hmeets
      have hshorter := length_of_comparison? hsome
      have htrim := length_trimLeft_le found.rest
      rw [hrun, ok_bind]
      refine (hoperand h').bind fun right pos'' h'' => ih h'' ?_
      have hright : right.rest.length < rest.length := right.shorter
      change right.rest.length < fuel
      omega

theorem follows_term (hoperand : Follows text operand operandAt) :
    Follows text (term operand) (termAt text operandAt) := fun h =>
  (hoperand h).bind fun _ _ hfirst =>
    agrees_operations productAt_of_at hoperand hfirst (Nat.lt_succ_of_le hfirst.length_le)

theorem follows_sum (hoperand : Follows text operand operandAt) :
    Follows text (sum operand) (sumAt text operandAt) := fun h =>
  (follows_term hoperand h).bind fun _ _ hfirst =>
    agrees_operations additiveAt_of_at (follows_term hoperand) hfirst
      (Nat.lt_succ_of_le hfirst.length_le)

theorem follows_chain (hoperand : Follows text operand operandAt) :
    Follows text (chain operand) (chainAt text operandAt) := by
  intro pos cs h
  refine (follows_sum hoperand h).bind fun first mid hfirst => ?_
  have hchain : Agrees text (comparisons (sum operand) (first.replace []))
      (comparisonsAt text (sumAt text operandAt) (text.length + 1) [] mid) :=
    agrees_comparisons (follows_sum hoperand) hfirst (Nat.lt_succ_of_le hfirst.length_le)
  refine hchain.bind fun links _ hlinks => ?_
  obtain ⟨links, _, _⟩ := links
  cases links with
  | nil => exact .found hlinks
  | cons => exact .found hlinks

end

/-! ### Operands -/

/-- A certain character follows a find, and reading goes on, or what stands in its place is told. -/
theorem agrees_close {p : Parsed α cs} {c : Char} {pos : ℕ}
    {f : Parsed α cs → Except Stuck (Parsed β ds)} {k : ℕ → Reading (β × ℕ)}
    (h : At text pos p.rest)
    (hk : ∀ {rest : List Char} {hrest : rest.length < cs.length} {pos' : ℕ}, At text pos' rest →
      Agrees text (f ⟨p.value, rest, hrest⟩) (k pos')) :
    Agrees text (closeWith c p >>= f) (expectAt text c pos >>= k) := by
  obtain ⟨mid, hskip, hmid⟩ := skip_of_at h
  unfold closeWith expectAt
  rw [hskip, ok_bind]
  split
  · next hnil =>
    rw [hnil] at hmid
    rw [peek_of_at hmid]
    exact .stuck hmid
  · next d rest hcons =>
    rw [hcons] at hmid
    rw [peek_of_at hmid, ok_bind]
    dsimp only [List.head?_cons]
    by_cases hd : d = c
    · rw [if_pos hd, if_pos hd, advance_of_cons hmid]
      exact hk hmid.next
    · rw [if_neg hd, if_neg hd]
      exact .stuck hmid

/-- After an item there is a comma and more items, or a closing character, or what stands in their
place is told. -/
theorem agrees_separated {c close : Char} {rest : List Char} {pos : ℕ}
    {more : Except Stuck (Parsed α cs)} {moreAt : ℕ → Reading (α × ℕ)} {all : Parsed α cs}
    (h : At text pos (c :: rest)) (hall : all.rest = rest)
    (hmore : ∀ {pos' : ℕ}, At text pos' rest → Agrees text more (moreAt pos')) :
    Agrees text
      (if c = ',' then more
        else if c = close then .ok all
        else .error ⟨.expectedEither ',' close (some c), c :: rest⟩)
      (if c = ',' then do moreAt (← advance text pos).2
        else if c = close then do return (all.value, (← advance text pos).2)
        else failAt pos (.expectedEither ',' close (some c))) := by
  rw [advance_of_cons h, ok_bind, ok_bind]
  split
  · exact hmore h.next
  · split
    · exact .found (hall ▸ h.next)
    · exact .stuck h

variable {nested : Parser Node} {nestedAt : ℕ → Reading (Node × ℕ)}

theorem agrees_items (hnested : Follows text nested nestedAt) {found : List Node} {pos fuel : ℕ}
    (h : At text pos cs) (hfuel : cs.length < fuel) :
    Agrees text (items nested found cs) (itemsAt text nestedAt fuel found pos) := by
  induction fuel generalizing found cs pos with
  | zero => exact absurd hfuel (Nat.not_lt_zero _)
  | succ fuel ih =>
    rw [itemsAt, items]
    refine (hnested h).bind fun item mid hitem => ?_
    obtain ⟨pos', hskip, h'⟩ := skip_of_at hitem
    dsimp only
    rw [hskip, ok_bind]
    split
    · next hnil =>
      rw [hnil] at h'
      rw [peek_of_at h']
      exact .stuck h'
    · next c rest hcons =>
      have hshorter := Nat.lt_trans (length_of_trimLeft hcons) item.shorter
      rw [hcons] at h'
      rw [peek_of_at h']
      exact agrees_separated h' rfl fun hrest => (ih hrest (by omega)).within _

theorem agrees_argument (hnested : Follows text nested nestedAt) {found : Arguments} {pos : ℕ}
    (h : At text pos cs) :
    Agrees text (argument nested found cs) (argumentAt text nestedAt found pos) := by
  unfold argument argumentAt
  split
  · next name value hkey =>
    obtain ⟨w, rest, hw, rfl, rfl, hrest⟩ := keywordAt_of_some h hkey
    obtain ⟨pos', hexpect, h'⟩ := expectAt_of_cons h.move hrest
    rw [hw, ok_bind]
    dsimp only
    rw [seat_of_at h.move, ok_bind, hexpect, ok_bind]
    split
    · exact .stuck h
    · refine (hnested h').bind fun p _ hp => ?_
      exact .found hp
  · next hkey =>
    rw [keywordAt_of_none h hkey, ok_bind]
    refine (hnested h).bind fun p pos' h' => ?_
    dsimp only
    split
    · exact .found h'
    · exact .stuck h

theorem agrees_arguments (hnested : Follows text nested nestedAt) {found : Arguments}
    {pos fuel : ℕ} (h : At text pos cs) (hfuel : cs.length < fuel) :
    Agrees text (arguments nested found cs) (argumentsAt text nestedAt fuel found pos) := by
  induction fuel generalizing found cs pos with
  | zero => exact absurd hfuel (Nat.not_lt_zero _)
  | succ fuel ih =>
    obtain ⟨start, hstart, hat⟩ := skip_of_at h
    rw [argumentsAt, arguments, hstart, ok_bind]
    refine (agrees_argument hnested hat).bind fun item mid hitem => ?_
    obtain ⟨pos', hskip, h'⟩ := skip_of_at hitem
    dsimp only
    rw [hskip, ok_bind]
    split
    · next hnil =>
      rw [hnil] at h'
      rw [peek_of_at h']
      exact .stuck h'
    · next c rest hcons =>
      have hshorter := Nat.lt_of_lt_of_le
        (Nat.lt_trans (length_of_trimLeft hcons) item.shorter) (length_trimLeft_le cs)
      rw [hcons] at h'
      rw [peek_of_at h']
      exact agrees_separated h' rfl fun hrest => (ih hrest (by omega)).within _

theorem follows_orEmpty {close : Char} {empty : α} {inner : Parser α}
    {innerAt : ℕ → Reading (α × ℕ)} (hinner : Follows text inner innerAt) :
    Follows text (orEmpty close empty inner) (orEmptyAt text close empty innerAt) := by
  intro pos cs h
  obtain ⟨mid, hskip, hmid⟩ := skip_of_at h
  unfold orEmpty orEmptyAt
  rw [hskip, ok_bind]
  split
  · next hnil =>
    rw [hnil] at hmid
    rw [peek_of_at hmid, ok_bind, List.head?_nil, if_neg (Option.some_ne_none close).symm]
    exact (hinner hmid).within _
  · next c rest hcons =>
    rw [hcons] at hmid
    rw [peek_of_at hmid, ok_bind, List.head?_cons]
    by_cases hc : c = close
    · rw [if_pos hc, if_pos (congrArg some hc), advance_of_cons hmid]
      exact .found hmid.next
    · rw [if_neg hc, if_neg fun h => hc (Option.some.inj h)]
      exact (hinner hmid).within _

theorem follows_list (hnested : Follows text nested nestedAt) :
    Follows text (orEmpty ']' [] (items nested []))
      (orEmptyAt text ']' [] (itemsAt text nestedAt (text.length + 1) [])) :=
  follows_orEmpty fun h => agrees_items hnested h (Nat.lt_succ_of_le h.length_le)

theorem follows_call (hnested : Follows text nested nestedAt) :
    Follows text (orEmpty ')' ⟨[], []⟩ (arguments nested ⟨[], []⟩))
      (orEmptyAt text ')' ⟨[], []⟩ (argumentsAt text nestedAt (text.length + 1) ⟨[], []⟩)) :=
  follows_orEmpty fun h => agrees_arguments hnested h (Nat.lt_succ_of_le h.length_le)

/-- After a point a number goes on with a digit. -/
theorem startsNumber_point (cs : List Char) :
    startsNumber ('.' :: cs) = (('.' :: cs)[1]?).any isDigit := by
  rcases cs with _ | ⟨c, cs⟩
  · decide
  · rfl

/-- A token at the cursor makes the same node as the token that is read. -/
theorem agrees_token {β : Type} {make : β → Node} {read : Reading (β × ℕ)} {x : β}
    {rest : List Char} {hrest : rest.length < ds.length} (h : Comes text read x rest) :
    @Agrees text Node ds (.ok ⟨make x, rest, hrest⟩) (do
      let (x, pos) ← read
      return (make x, pos)) := by
  obtain ⟨pos', hrun, h'⟩ := h
  rw [hrun]
  exact .found h'

/-- An operand is read in the same way before and after the blanks in front of it. -/
theorem agrees_primary (hnested : Follows text nested nestedAt) {pos : ℕ}
    (h : At text pos (trimLeft cs)) :
    Agrees text (primary nested cs) (primaryAt text nestedAt pos) := by
  obtain ⟨mid, hskip, hmid⟩ := skip_of_at h
  rw [trimLeft_trimLeft] at hmid
  unfold primary primaryAt
  rw [hskip, ok_bind]
  split
  · next hnil =>
    rw [hnil] at hmid
    rw [peek_of_at hmid]
    exact .stuck hmid
  · next c rest hcons =>
    rw [hcons] at hmid
    rw [peek_of_at hmid, ok_bind]
    dsimp only [List.head?_cons]
    -- The cursor sees one character at a time, so digits and points are told apart first, and what
    -- is neither does not start a number.
    by_cases hd : isDigit c = true
    · have hn := startsNumber_of_isDigit hd rest
      rw [dif_pos hn, if_pos hd]
      exact agrees_token (numberAt_of_at hmid hn)
    rw [if_neg hd]
    by_cases hpoint : c = '.'
    · subst hpoint
      rw [if_pos rfl, remaining_of_at hmid, ok_bind, ← startsNumber_point]
      by_cases hn : startsNumber ('.' :: rest) = true
      · rw [dif_pos hn, if_pos hn]
        exact agrees_token (numberAt_of_at hmid hn)
      · -- nor does a name or anything else start with a point
        rw [dif_neg hn, if_neg hn, if_neg (by decide), if_neg (by decide), if_neg (by decide)]
        exact .stuck hmid
    have hn : startsNumber (c :: rest) = false :=
      startsNumber_eq_false (Bool.eq_false_iff.mpr hd) hpoint
    rw [if_neg hpoint, dif_neg (Bool.eq_false_iff.mp hn)]
    by_cases hquote : c = '"' ∨ c = '\x27'
    · rw [if_pos hquote, if_pos hquote]
      split
      · next body rest' hbody => exact agrees_token (stringAt_of_some hmid hbody)
      · next hbody =>
        rw [stringAt_of_none hmid hbody]
        exact .stuck hmid
    rw [if_neg hquote, if_neg hquote]
    by_cases hparen : c = '('
    · rw [if_pos hparen, if_pos hparen, advance_of_cons hmid, ok_bind]
      refine (hnested hmid.next).bind fun inner _ hinner => ?_
      rw [← bind_pure (closeWith ')' _)]
      exact agrees_close hinner fun h => .found h
    rw [if_neg hparen, if_neg hparen]
    by_cases hbracket : c = '['
    · rw [if_pos hbracket, if_pos hbracket, advance_of_cons hmid, ok_bind]
      exact (follows_list hnested hmid.next).bind fun _ _ hlist => .found hlist
    rw [if_neg hbracket, if_neg hbracket]
    split
    · next name rest' hname =>
      obtain ⟨w, hw, -, -⟩ := nameAt_of_some hmid hname
      -- Blanks are skipped again before the name, and there are none.
      have htrim : trimLeft (c :: rest) = c :: rest := by rw [← hcons, trimLeft_trimLeft]
      rw [hw, ok_bind]
      exact agrees_token (identifierAt_of_some hmid (htrim.symm ▸ hname))
    · next hname =>
      rw [nameAt_of_none hmid hname]
      exact .stuck hmid

theorem agrees_trailers (hnested : Follows text nested nestedAt) {base : Parsed Node cs}
    {pos fuel : ℕ} (h : At text pos base.rest) (hfuel : base.rest.length < fuel) :
    Agrees text (trailers nested base) (trailersAt text nestedAt fuel base.value pos) := by
  induction fuel generalizing base pos with
  | zero => exact absurd hfuel (Nat.not_lt_zero _)
  | succ fuel ih =>
    obtain ⟨mid, hskip, hmid⟩ := skip_of_at h
    rw [trailersAt, trailers, hskip, ok_bind]
    split
    · next hnil =>
      have hend := hmid
      rw [hnil] at hend
      rw [peek_of_at hend]
      exact .found hmid
    · next c rest hcons =>
      have hshorter := length_of_trimLeft hcons
      have hbase := hmid
      rw [hcons] at hmid
      rw [peek_of_at hmid, ok_bind]
      dsimp only [List.head?_cons]
      by_cases hparen : c = '('
      · rw [if_pos hparen, if_pos hparen, advance_of_cons hmid, ok_bind]
        refine (follows_call hnested hmid.next).bind fun args _ hargs => ih hargs ?_
        have hargs : args.rest.length < rest.length := args.shorter
        change args.rest.length < fuel
        omega
      rw [if_neg hparen, if_neg hparen]
      by_cases hpoint : c = '.'
      · rw [if_pos hpoint, if_pos hpoint, advance_of_cons hmid, ok_bind]
        split
        · next field rest' hfield =>
          obtain ⟨pos', hrun, h'⟩ := identifierAt_of_some hmid.next hfield
          rw [hrun, ok_bind]
          refine ih h' ?_
          have hname := length_of_name? hfield
          have htrim := length_trimLeft_le rest
          change rest'.length < fuel
          omega
        · next hfield =>
          obtain ⟨pos', hrun, h'⟩ := identifierAt_of_none hmid.next hfield
          rw [hrun]
          exact .stuck h'
      rw [if_neg hpoint, if_neg hpoint]
      by_cases hbracket : c = '['
      · rw [if_pos hbracket, if_pos hbracket, advance_of_cons hmid, ok_bind]
        refine (hnested hmid.next).bind fun inner pos' hinner => ?_
        refine agrees_close hinner fun {rest'} hrest' _ h' => ih h' ?_
        change rest'.length < fuel
        omega
      · rw [if_neg hbracket, if_neg hbracket]
        exact .found hbase

/-- After its suffixes an operand ends with the blanks behind it. -/
theorem trimmed_of_trailers {base p : Parsed Node cs} (h : trailers nested base = .ok p) :
    trimLeft p.rest = p.rest := by
  fun_induction trailers nested base with
  | case1 | case6 =>
    cases h
    exact trimLeft_trimLeft _
  | case2 _ _ _ _ ih =>
    obtain ⟨args, -, h⟩ := bind_ok_iff.mp h
    exact ih args h
  | case3 _ _ _ _ _ _ _ _ _ ih => exact ih h
  | case4 => cases h
  | case5 _ _ _ _ _ _ ih =>
    obtain ⟨inner, -, h⟩ := bind_ok_iff.mp h
    obtain ⟨index, -, h⟩ := bind_ok_iff.mp h
    exact ih index h

variable {deeper : Parser Node} {deeperAt : ℕ → Reading (Node × ℕ)}

theorem follows_operand (hnested : Follows text nested nestedAt)
    (hdeeper : Follows text deeper deeperAt) :
    Follows text (operandWith nested deeper) (operandAt text nestedAt deeperAt) := by
  intro pos cs h
  obtain ⟨mid, hskip, hmid⟩ := skip_of_at h
  have hsign := signAt_of_at hmid
  unfold operandWith operandAt
  rw [hskip, ok_bind]
  split
  · next s rest hsome =>
    rw [hsome] at hsign
    obtain ⟨pos', hrun, h'⟩ := hsign
    rw [hrun, ok_bind]
    exact (hdeeper h').bind fun _ _ hv => .found hv
  · next hnone =>
    rw [hnone] at hsign
    rw [hsign, ok_bind]
    refine (agrees_primary hnested hmid).bind fun first pos' hfirst => ?_
    have htrailers : Agrees text (trailers nested first)
        (trailersAt text nestedAt (text.length + 1) first.value pos') :=
      agrees_trailers hnested hfirst (Nat.lt_succ_of_le hfirst.length_le)
    refine htrailers.bind_of_ok fun base after hbase h' => ?_
    obtain ⟨last, hlast, hrest⟩ := skip_of_at h'
    have hpower := powerAt_of_at hrest
    dsimp only
    rw [hlast, ok_bind]
    split
    · next rest hsome =>
      rw [hsome] at hpower
      obtain ⟨_, hrun, hexponent⟩ := hpower
      rw [hrun, ok_bind]
      exact (hdeeper hexponent).bind fun _ _ hv => .found hv
    · next hnone =>
      rw [hnone] at hpower
      rw [hpower, ok_bind]
      -- The blanks after the operand were skipped with its suffixes.
      rw [trimmed_of_trailers hbase] at hrest
      exact .found hrest

/-! ### Levels -/

theorem follows_exhausted : Follows text exhausted exhaustedAt := fun h => .stuck h

theorem follows_grammar (n : ℕ) :
    Follows text (grammar n).comparison (grammarAt text n).comparison ∧
      Follows text (grammar n).operand (grammarAt text n).operand := by
  induction n with
  | zero => exact ⟨follows_exhausted, follows_operand follows_exhausted follows_exhausted⟩
  | succ n ih =>
    have hcomparison :
        Follows text (grammar (n + 1)).comparison (grammarAt text (n + 1)).comparison :=
      follows_chain ih.2
    exact ⟨hcomparison, follows_operand hcomparison ih.2⟩

end

/-! ## Whole texts -/

section

variable {text cs : List Char} {pos : ℕ}

/-- The cursor stands at the end of the text where nothing is left. -/
theorem At.end_iff (h : At text pos cs) : utf8Length text ≤ pos ↔ cs = [] := by
  obtain ⟨pre, rfl, rfl⟩ := h
  rw [utf8Length_append]
  rcases cs with _ | ⟨c, cs⟩
  · exact ⟨fun _ => rfl, fun _ => Nat.le_refl _⟩
  · have hpos := c.utf8Size_pos
    rw [utf8Length_cons]
    exact ⟨fun h => absurd h (by omega), fun h => (by cases h)⟩

/-- **A whole text is read at the cursor as it is read**: to the same tree, or to the same fault,
which is told where the text was unread. -/
theorem parseAt_of_parseChars (text : List Char) :
    (∃ v, parseChars text = .ok v ∧ parseAt text = .ok v) ∨
      ∃ e pos, parseChars text = .error e ∧ parseAt text = failAt pos e.fault ∧
        At text pos e.rest := by
  obtain ⟨start, hskip, hstart⟩ := skip_of_at (at_zero text)
  unfold parseChars parseAt
  rw [hskip, ok_bind]
  split
  · next hnil =>
    rw [hnil] at hstart
    rw [if_pos (hstart.end_iff.mpr rfl)]
    exact .inr ⟨_, start, rfl, rfl, hstart⟩
  · next c cs hcons =>
    rw [hcons] at hstart
    rw [if_neg fun h => List.cons_ne_nil c cs (hstart.end_iff.mp h)]
    have hcomparison := (follows_grammar maxNesting).1 hstart
    generalize (grammar maxNesting).comparison (c :: cs) = x at *
    generalize (grammarAt text maxNesting).comparison start = g at *
    cases hcomparison with
    | stuck h => exact .inr ⟨_, _, rfl, rfl, h⟩
    | @found v rest _ pos h =>
      obtain ⟨last, hlast, hend⟩ := skip_of_at h
      rw [ok_bind, ok_bind]
      dsimp only
      rw [hlast, ok_bind]
      split
      · next hnil =>
        rw [if_neg (Nat.not_lt.mpr (hend.end_iff.mpr hnil))]
        exact .inl ⟨v, rfl, rfl⟩
      · next d more hmore =>
        rw [hmore] at hend
        rw [if_pos (Nat.not_le.mp fun h => List.cons_ne_nil d more (hend.end_iff.mp h)),
          remaining_of_at hend]
        exact .inr ⟨_, last, rfl, rfl, hend⟩

end

/-- A fault in a text as it is found at the cursor. -/
def SyntaxError.found (e : SyntaxError) : CursorError := ⟨.expression e.fault, e.position⟩

theorem utf8ByteSize_ofList (cs : List Char) :
    (String.ofList cs).utf8ByteSize = utf8Length cs := by
  induction cs with
  | nil => rfl
  | cons c cs ih =>
    rw [String.ofList_cons, String.utf8ByteSize_append, String.utf8ByteSize_singleton, ih,
      utf8Length_cons]

/-- **Faults point into the text, and the cursor is never inside of a character.** The place of a
fault is the length of a prefix of whole characters. Reading at a cursor does not overrun: every
place it moves to or is set back to, and both ends of every slice, are such lengths, and no loop
goes on for longer than the text. -/
theorem parse_stays_on_boundaries (text : String) :
    (∀ e, parse text = .error e → e.position ≤ text.utf8ByteSize ∧
      ∃ pre suf : String, text = pre ++ suf ∧ e.position = pre.utf8ByteSize) ∧
    parseAt text.toList = lift ((parse text).mapError SyntaxError.found) ∧
    ∀ o, parseAt text.toList ≠ .error (.overrun o) := by
  have hsame : parseAt text.toList = lift ((parse text).mapError SyntaxError.found) := by
    unfold parse
    obtain ⟨v, hchars, hat⟩ | ⟨e, pos, hchars, hat, h⟩ := parseAt_of_parseChars text.toList
    · rw [hchars, hat]
      rfl
    · rw [hchars, hat, h.eq_sub]
      rfl
  refine ⟨fun e he => ?_, hsame, fun o => hsame ▸ lift_ne_overrun _ o⟩
  obtain ⟨v, hchars, -⟩ | ⟨stuck, pos, hchars, -, pre, hpre, rfl⟩ :=
    parseAt_of_parseChars text.toList
  · unfold parse at he
    rw [hchars] at he
    cases he
  · have htext : text = String.ofList pre ++ String.ofList stuck.rest := by
      rw [← String.ofList_append, ← hpre, String.ofList_toList]
    have hposition : e.position = (String.ofList pre).utf8ByteSize := by
      unfold parse at he
      rw [hchars] at he
      cases he
      dsimp only
      rw [hpre, utf8Length_append, Nat.add_sub_cancel, utf8ByteSize_ofList]
    refine ⟨?_, _, _, htext, hposition⟩
    rw [hposition, htext, String.utf8ByteSize_append]
    exact Nat.le_add_right _ _

/-- After a letter of two bytes and a sign nothing follows, which is told at byte three. -/
theorem parse_stays_on_boundaries_accent : parse "é+" = .error ⟨.unexpectedEnd, 3⟩ ∧
    ∃ pre suf : String, "é+" = pre ++ suf ∧ 3 = pre.utf8ByteSize := by
  have hfault : (match parse "é+" with | .error e => some e | .ok _ => none) =
      some ⟨.unexpectedEnd, 3⟩ := by
    decide +kernel
  have hparse : parse "é+" = .error ⟨.unexpectedEnd, 3⟩ := by
    split at hfault
    · next heq =>
      cases hfault
      exact heq
    · cases hfault
  exact ⟨hparse, ((parse_stays_on_boundaries "é+").1 _ hparse).2⟩

end TickBacktest.Expression
