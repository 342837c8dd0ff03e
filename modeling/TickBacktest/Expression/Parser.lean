import TickBacktest.Expression.Node
import TickBacktest.Expression.SyntaxError
import TickBacktest.Expression.Token
import TickBacktest.Text.Parsed

/-! # Reading an expression

From the loosest to the tightest, an expression is a chain of comparisons, of sums and differences,
of products, quotients and remainders, of signs, a power, which groups to the right, and an operand
with calls, attributes and subscripts after it. Blanks may stand between any two tokens.

**The nesting budget.** Parentheses, brackets, call arguments, signs and exponents nest, and each of
them spends one unit of a budget of `maxNesting`; an expression that needs more is too complex.
`grammar n` holds the two parsers that nest, for a budget of `n`: the one for a budget of `n + 1` is
built from the one for `n`, so reading is by recursion on the budget. Chains that go on at one level
spend nothing and are read by recursion on the text. -/

namespace TickBacktest.Expression

open Text

/-! ## Parsers -/

/-- A fault and the text that was unread when it was found. -/
structure Stuck where
  fault : SyntaxFault
  rest : List Char

/-- A parser reads a value off the front of a text. -/
abbrev Parser (α : Type) := (cs : List Char) → Except Stuck (Parsed α cs)

/-- The character `c`, after blanks, must follow the find. -/
def closeWith {α : Type} {cs : List Char} (c : Char) (p : Parsed α cs) :
    Except Stuck (Parsed α cs) :=
  match h : trimLeft p.rest with
  | [] => .error ⟨.expected c none, []⟩
  | d :: rest =>
    if d = c then
      .ok ⟨p.value, rest, Nat.lt_trans (length_of_trimLeft h) p.shorter⟩
    else .error ⟨.expected c (some d), d :: rest⟩

/-! ## Chains -/

/-- A chain of operations that groups to the left: `next` finds the operator that goes on. -/
def operations (next : List Char → Option (Operator × List Char))
    (shorter : ∀ {cs op rest}, next cs = some (op, rest) → rest.length < cs.length)
    (operand : Parser Node) {cs : List Char} (left : Parsed Node cs) :
    Except Stuck (Parsed Node cs) :=
  match h : next (trimLeft left.rest) with
  | none => .ok left.skipBlanks
  | some (op, rest) => do
    have h1 := Nat.lt_of_lt_of_le (shorter h) (length_trimLeft_le left.rest)
    let right ← operand rest
    have h2 := Nat.lt_trans right.shorter h1
    operations next shorter operand
      ⟨.binary op left.value right.value, right.rest, Nat.lt_trans h2 left.shorter⟩
termination_by left.rest.length
decreasing_by exact h2

/-- The links of a chain of comparisons, after those found so far, latest first. -/
def comparisons (operand : Parser Node) {cs : List Char}
    (found : Parsed (List (Comparison × Node)) cs) :
    Except Stuck (Parsed (List (Comparison × Node)) cs) :=
  match h : comparison? (trimLeft found.rest) with
  | none => .ok (found.skipBlanks.replace found.value.reverse)
  | some (op, rest) => do
    have h1 := Nat.lt_of_lt_of_le (length_of_comparison? h) (length_trimLeft_le found.rest)
    let right ← operand rest
    have h2 := Nat.lt_trans right.shorter h1
    comparisons operand
      ⟨(op, right.value) :: found.value, right.rest, Nat.lt_trans h2 found.shorter⟩
termination_by found.rest.length
decreasing_by exact h2

/-- A chain of products over operands. -/
def term (operand : Parser Node) : Parser Node := fun cs => do
  operations multiplicative? length_of_multiplicative? operand (← operand cs)

/-- A chain of sums over operands. -/
def sum (operand : Parser Node) : Parser Node := fun cs => do
  operations additive? length_of_additive? (term operand) (← term operand cs)

/-- A chain of comparisons over operands; a chain without links is its first operand. -/
def chain (operand : Parser Node) : Parser Node := fun cs => do
  let first ← sum operand cs
  let links ← comparisons (sum operand) (first.replace [])
  match links.value with
  | [] => .ok (links.replace first.value)
  | l :: ls => .ok (links.replace (.compare first.value (l :: ls)))

/-! ## Operands -/

/-- The items of a list, after those found so far, latest first. -/
def items (nested : Parser Node) (found : List Node) (cs : List Char) :
    Except Stuck (Parsed (List Node) cs) := do
  let item ← nested cs
  match h : trimLeft item.rest with
  | [] => .error ⟨.expectedEither ',' ']' none, []⟩
  | c :: rest =>
    have h1 := Nat.lt_trans (length_of_trimLeft h) item.shorter
    if c = ',' then
      let all ← items nested (item.value :: found) rest
      .ok (all.within (Nat.le_of_lt h1))
    else if c = ']' then .ok ⟨(item.value :: found).reverse, rest, h1⟩
    else .error ⟨.expectedEither ',' ']' (some c), c :: rest⟩
termination_by cs.length
decreasing_by exact h1

/-- The arguments of a call. -/
structure Arguments where
  positional : List Node
  keywords : List (String × Node)

/-- One argument after those found so far, latest first: a keyword must be new, and no positional
argument follows one. -/
def argument (nested : Parser Node) (found : Arguments) (cs : List Char) :
    Except Stuck (Parsed Arguments cs) :=
  match h : keyword? cs with
  | some (name, value) => do
    if found.keywords.any (·.1 = name) then .error ⟨.repeatedKeyword name, cs⟩
    else
      let p ← nested value
      .ok ((p.replace ⟨found.positional, (name, p.value) :: found.keywords⟩).within
        (Nat.le_of_lt (length_of_keyword? h)))
  | none => do
    let p ← nested cs
    if found.keywords.isEmpty then .ok (p.replace ⟨p.value :: found.positional, []⟩)
    else .error ⟨.positionalAfterKeyword, cs⟩

/-- The arguments of a call up to its closing parenthesis, after those found so far, latest
first. -/
def arguments (nested : Parser Node) (found : Arguments) (cs : List Char) :
    Except Stuck (Parsed Arguments cs) := do
  let p ← argument nested found (trimLeft cs)
  match h : trimLeft p.rest with
  | [] => .error ⟨.expectedEither ',' ')' none, []⟩
  | c :: rest =>
    have h1 :=
      Nat.lt_of_lt_of_le (Nat.lt_trans (length_of_trimLeft h) p.shorter) (length_trimLeft_le cs)
    if c = ',' then
      let all ← arguments nested p.value rest
      .ok (all.within (Nat.le_of_lt h1))
    else if c = ')' then
      .ok ⟨⟨p.value.positional.reverse, p.value.keywords.reverse⟩, rest, h1⟩
    else .error ⟨.expectedEither ',' ')' (some c), c :: rest⟩
termination_by cs.length
decreasing_by exact h1

/-- What follows an opening parenthesis or bracket and blanks: nothing up to the closing one, or
what `inner` reads. -/
def orEmpty {α : Type} (close : Char) (empty : α) (inner : Parser α) : Parser α := fun cs => do
  match h : trimLeft cs with
  | [] => .ok ((← inner []).within (Nat.zero_le _))
  | c :: rest =>
    if c = close then .ok ⟨empty, rest, length_of_trimLeft h⟩
    else .ok ((← inner (c :: rest)).within (h ▸ length_trimLeft_le cs))

/-- A number, a quoted text, a name, a list, or an expression in parentheses. -/
def primary (nested : Parser Node) : Parser Node := fun text => do
  match h : trimLeft text with
  | [] => .error ⟨.unexpectedEnd, []⟩
  | c :: cs =>
    have h0 : (c :: cs).length ≤ text.length := h ▸ length_trimLeft_le text
    have h1 := length_of_trimLeft h
    if hn : startsNumber (c :: cs) then
      .ok ⟨.number (number (c :: cs)).1, (number (c :: cs)).2,
        Nat.lt_of_lt_of_le (length_number_lt hn) h0⟩
    else if c = '"' ∨ c = '\x27' then
      match hq : quotedBody c cs with
      | some (body, rest) =>
        .ok ⟨.text (String.ofList body), rest, Nat.lt_trans (length_of_quotedBody hq) h1⟩
      | none => .error ⟨.unterminatedText, c :: cs⟩
    else if c = '(' then do
      let inner ← nested cs
      closeWith ')' (inner.within (Nat.le_of_lt h1))
    else if c = '[' then do
      let p ← orEmpty ']' [] (items nested []) cs
      .ok ((p.replace (.list p.value)).within (Nat.le_of_lt h1))
    else
      match hs : name? (c :: cs) with
      | some (name, rest) =>
        .ok ⟨.name name, rest, Nat.lt_of_lt_of_le (length_of_name? hs) h0⟩
      | none => .error ⟨.unexpected c, c :: cs⟩

/-- The calls, attributes and subscripts that follow an operand. -/
def trailers (nested : Parser Node) {text : List Char} (base : Parsed Node text) :
    Except Stuck (Parsed Node text) := do
  match h : trimLeft base.rest with
  | [] => .ok base.skipBlanks
  | c :: cs =>
    have h1 := length_of_trimLeft h
    if c = '(' then do
      let p ← orEmpty ')' ⟨[], []⟩ (arguments nested ⟨[], []⟩) cs
      have h2 := Nat.lt_trans p.shorter h1
      trailers nested
        ⟨.call base.value p.value.positional p.value.keywords, p.rest,
          Nat.lt_trans h2 base.shorter⟩
    else if c = '.' then do
      match hs : name? (trimLeft cs) with
      | some (field, rest) =>
        have h2 :=
          Nat.lt_trans (Nat.lt_of_lt_of_le (length_of_name? hs) (length_trimLeft_le cs)) h1
        trailers nested ⟨.member base.value field, rest, Nat.lt_trans h2 base.shorter⟩
      | none => .error ⟨.expectedIdentifier (trimLeft cs).head?, trimLeft cs⟩
    else if c = '[' then do
      let inner ← nested cs
      let p ← closeWith ']' inner
      have h2 := Nat.lt_trans p.shorter h1
      trailers nested
        ⟨.subscript base.value p.value, p.rest, Nat.lt_trans h2 base.shorter⟩
    else .ok base.skipBlanks
termination_by base.rest.length
decreasing_by all_goals exact h2

/-- An operand, perhaps raised to a power. Signs and exponents are read by `deeper`, everything in
parentheses or brackets by `nested`. -/
def operandWith (nested deeper : Parser Node) : Parser Node := fun text => do
  match hs : sign? (trimLeft text) with
  | some (sign, rest) =>
    have h1 := Nat.lt_of_lt_of_le (length_of_sign? hs) (length_trimLeft_le text)
    let p ← deeper rest
    .ok ((p.replace (.signed sign p.value)).within (Nat.le_of_lt h1))
  | none =>
    let base ← trailers nested (← primary nested text)
    match hp : power? (trimLeft base.rest) with
    | some rest =>
      have h1 := Nat.lt_of_lt_of_le (length_of_power? hp) (length_trimLeft_le base.rest)
      let p ← deeper rest
      .ok ((p.replace (.binary .pow base.value p.value)).within
        (Nat.le_of_lt (Nat.lt_trans h1 base.shorter)))
    | none => .ok base

/-! ## Levels -/

/-- How deep parentheses, brackets, arguments, signs and exponents may nest. -/
def maxNesting : Nat := 100

/-- The parsers that nest, for one nesting budget. -/
structure Grammar where
  comparison : Parser Node
  operand : Parser Node

/-- The parser that has no budget left. -/
def exhausted : Parser Node := fun cs => .error ⟨.tooComplex, cs⟩

/-- The parsers for a nesting budget. -/
def grammar : Nat → Grammar
  | 0 => ⟨exhausted, operandWith exhausted exhausted⟩
  | n + 1 =>
    let inner := grammar n
    let comparison := chain inner.operand
    ⟨comparison, operandWith comparison inner.operand⟩

/-- Reads a whole text. -/
def parseChars (text : List Char) : Except Stuck Node :=
  match trimLeft text with
  | [] => .error ⟨.emptyExpression, []⟩
  | c :: cs => do
    let p ← (grammar maxNesting).comparison (c :: cs)
    match trimLeft p.rest with
    | [] => .ok p.value
    | d :: rest => .error ⟨.trailing (d :: rest), d :: rest⟩

/-- The tree of an expression, or the first fault in it and its place. -/
def parse (text : String) : Except SyntaxError Node :=
  match parseChars text.toList with
  | .ok node => .ok node
  | .error e => .error ⟨e.fault, utf8Length text.toList - utf8Length e.rest⟩

end TickBacktest.Expression
