import TickBacktest.Text.Blank

/-! # Comma-separated text

A table as text: records end at line breaks (`\r`, `\n` or both), fields at commas, and empty lines
are no records. A quote at the very start of a field opens a quoted part, in which commas and line
breaks are plain characters and two quotes stand for one; what follows its closing quote belongs to
the field still. A quoted part that is never closed ends with the text. -/

namespace TickBacktest.Text.Delimited

/-- Where in a table the next character stands. -/
inductive Place where
  | recordStart
  | fieldStart
  | plain
  | quoted
  | afterQuote
  deriving DecidableEq, Repr

/-- The part of a table that has been read: its records and the fields and characters of the one
still open, all latest first. -/
structure Progress where
  place : Place
  records : List (List String)
  fields : List String
  chars : List Char

namespace Progress

/-- Nothing read yet. -/
def start : Progress := ⟨.recordStart, [], [], []⟩

/-- Adds a character to the open field. -/
def put (p : Progress) (place : Place) (c : Char) : Progress :=
  { p with place := place, chars := c :: p.chars }

/-- Ends the open field. -/
def endField (p : Progress) : Progress :=
  { p with
    place := .fieldStart
    fields := String.ofList p.chars.reverse :: p.fields
    chars := [] }

/-- Ends the open field and its record. -/
def endRecord (p : Progress) : Progress :=
  let q := p.endField
  { q with place := .recordStart, records := q.fields.reverse :: q.records, fields := [] }

/-- A character outside of quotes: a comma, a line break, or part of the field. -/
def unquoted (p : Progress) (c : Char) : Progress :=
  if c = ',' then p.endField
  else if c = '\r' ∨ c = '\n' then p.endRecord
  else p.put .plain c

/-- Reads one more character. -/
def step (p : Progress) (c : Char) : Progress :=
  match p.place with
  | .recordStart =>
    if c = '\r' ∨ c = '\n' then p
    else if c = '"' then { p with place := .quoted }
    else p.unquoted c
  | .fieldStart => if c = '"' then { p with place := .quoted } else p.unquoted c
  | .plain => p.unquoted c
  | .quoted => if c = '"' then { p with place := .afterQuote } else p.put .quoted c
  | .afterQuote => if c = '"' then p.put .quoted c else p.unquoted c

/-- The records, once the text has ended. -/
def finish (p : Progress) : List (List String) :=
  match p.place with
  | .recordStart => p.records.reverse
  | _ => p.endRecord.records.reverse

end Progress

/-- The text without a byte order mark in front. -/
def dropMark : List Char → List Char
  | '\uFEFF' :: cs => cs
  | cs => cs

/-- The records of a table. -/
def records (text : String) : List (List String) :=
  ((dropMark text.toList).foldl Progress.step .start).finish

end TickBacktest.Text.Delimited
