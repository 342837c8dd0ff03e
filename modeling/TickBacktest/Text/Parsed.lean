import TickBacktest.Text.Blank

/-! # Finds

What a parser found at the front of a text, with the rest of the text and the fact that it is
shorter. Parsers that call each other end because every find shortens the text. -/

namespace TickBacktest.Text

theorem length_of_cons {c : Char} {cs rest : List Char} (h : cs = c :: rest) :
    rest.length < cs.length :=
  h ▸ Nat.lt_succ_self _

theorem length_of_trimLeft {c : Char} {cs rest : List Char} (h : trimLeft cs = c :: rest) :
    rest.length < cs.length :=
  Nat.lt_of_lt_of_le (length_of_cons h) (length_trimLeft_le cs)

/-- A value found at the front of `cs`, and the rest of the text, which is shorter. -/
structure Parsed (α : Type) (cs : List Char) where
  value : α
  rest : List Char
  shorter : rest.length < cs.length

namespace Parsed

/-- The same find, in a text that is no shorter. -/
def within {α : Type} {cs ds : List Char} (p : Parsed α ds) (h : ds.length ≤ cs.length) :
    Parsed α cs :=
  ⟨p.value, p.rest, Nat.lt_of_lt_of_le p.shorter h⟩

/-- The find with another value. -/
def replace {α β : Type} {cs : List Char} (p : Parsed α cs) (b : β) : Parsed β cs :=
  ⟨b, p.rest, p.shorter⟩

/-- The find and the blanks after it. -/
def skipBlanks {α : Type} {cs : List Char} (p : Parsed α cs) : Parsed α cs :=
  ⟨p.value, trimLeft p.rest, Nat.lt_of_le_of_lt (length_trimLeft_le _) p.shorter⟩

end Parsed

end TickBacktest.Text
