import TickBacktest.Json.Source
import TickBacktest.Text.Quoted

/-! # Writing JSON

Values as text, without blanks or one entry a line with two spaces for each level. In texts only the
quote, the backslash and the control characters are escaped. -/

namespace TickBacktest.Json

/-- How a character of a text is written. -/
def escapedChar (c : Char) : List Char :=
  if c = '"' then ['\\', '"']
  else if c = '\\' then ['\\', '\\']
  else if c = '\n' then ['\\', 'n']
  else if c = '\r' then ['\\', 'r']
  else if c = '\t' then ['\\', 't']
  else if c = '\x08' then ['\\', 'b']
  else if c = '\x0c' then ['\\', 'f']
  else if c.toNat < 32 then
    ['\\', 'u', '0', '0', Text.hexDigit (c.toNat / 16), Text.hexDigit (c.toNat % 16)]
  else [c]

/-- A text between quotes. -/
def textChars (s : String) : List Char := '"' :: s.toList.flatMap escapedChar ++ ['"']

/-- The text of a value that has no parts. -/
def boolChars (b : Bool) : List Char := if b then "true".toList else "false".toList

mutual

/-- A value without blanks. -/
def compactChars : Json → List Char
  | .null => "null".toList
  | .bool b => boolChars b
  | .number n => n.text
  | .text s => textChars s
  | .array items => '[' :: [','].intercalate (compactItems items) ++ [']']
  | .object entries => '\x7b' :: [','].intercalate (compactEntries entries) ++ ['\x7d']

def compactItems : List Json → List (List Char)
  | [] => []
  | x :: xs => compactChars x :: compactItems xs

def compactEntries : List (String × Json) → List (List Char)
  | [] => []
  | (key, x) :: xs => (textChars key ++ ':' :: compactChars x) :: compactEntries xs

end

/-- A new line at a level of indentation. -/
def newLine (level : Nat) : List Char := '\n' :: List.replicate (2 * level) ' '

/-- The parts of an array or object at a level, between brackets, each on a line of its own. -/
def bracketed (opening closing : Char) (level : Nat) (parts : List (List Char)) : List Char :=
  if parts.isEmpty then [opening, closing]
  else
    opening :: newLine (level + 1) ++ (',' :: newLine (level + 1)).intercalate parts ++
      newLine level ++ [closing]

mutual

/-- A value at a level of indentation. -/
def prettyChars (level : Nat) : Json → List Char
  | .array items => bracketed '[' ']' level (prettyItems (level + 1) items)
  | .object entries => bracketed '\x7b' '\x7d' level (prettyEntries (level + 1) entries)
  | .null => "null".toList
  | .bool b => boolChars b
  | .number n => n.text
  | .text s => textChars s

def prettyItems (level : Nat) : List Json → List (List Char)
  | [] => []
  | x :: xs => prettyChars level x :: prettyItems level xs

def prettyEntries (level : Nat) : List (String × Json) → List (List Char)
  | [] => []
  | (key, x) :: xs =>
    (textChars key ++ ':' :: ' ' :: prettyChars level x) :: prettyEntries level xs

end

/-- The value as text without blanks. -/
def compact (j : Json) : String := String.ofList (compactChars j)

/-- The value as text over several lines. -/
def pretty (j : Json) : String := String.ofList (prettyChars 0 j)

end TickBacktest.Json
