import TickBacktest.Decimal.Reading
import TickBacktest.Text.Blank
import TickBacktest.Text.LowerCase

/-! # Configuration files

A configuration file has sections of keys with values. Every line is trimmed; an empty line and a
comment, which starts with `;` or `#`, are passed over, and a comment after other text is cut off. A
line in brackets names the section of the lines that follow; any other line is a key and, after `=`
or `:`, its value. Names of sections and keys are in lower case. -/

namespace TickBacktest.Config

open Text (trimChars lower)

/-- A setting: its section and key, and its value, if it has one. -/
structure Setting where
  sec : String
  key : String
  value : Option String
  deriving DecidableEq, Repr

/-- The settings of a file, in order. A later one counts before an earlier one of the same name. -/
abbrev Ini := List Setting

namespace Ini

/-- The value of a key in a section. -/
def get (ini : Ini) (sec key : String) : Option String :=
  (ini.reverse.find? fun s => s.sec = lower sec ∧ s.key = lower key).bind (·.value)

/-- The value as a whole number, or the default. -/
def getInt (ini : Ini) (sec key : String) (default : Int) : Int :=
  ((ini.get sec key).bind fun s => Decimal.integer? s.toList).getD default

/-- The value as a double, or the default. -/
def getFloat (ini : Ini) (sec key : String) (default : Float) : Float :=
  ((ini.get sec key).bind fun s => Decimal.float? s.toList).getD default

/-! ## Reading -/

/-- The section of the lines before the first section line. -/
def firstSection : String := "default"

/-- Starts a comment. -/
def startsComment (c : Char) : Bool := c = ';' || c = '#'

/-- The lines of a text. A line break may be `\n` or `\r\n`. -/
def lines (text : List Char) : List (List Char) := text.splitOn '\n'

/-- A trimmed line without its comment. -/
def content (line : List Char) : List Char :=
  trimChars ((trimChars line).takeWhile fun c => !startsComment c)

/-- The name of the section in a line that starts with a bracket: everything up to the last closing
bracket. -/
def sectionName? (line : List Char) : Option String :=
  match line with
  | '[' :: rest =>
    match rest.reverse.dropWhile (· ≠ ']') with
    | ']' :: name => some (lower (String.ofList (trimChars name.reverse)))
    | _ => none
  | _ => none

/-- Separates a key from its value. -/
def separates (c : Char) : Bool := c = '=' || c = ':'

/-- The key of a line and its value. A line without a separator is a key without a value; a key must
not be empty. -/
def keyValue? (line : List Char) : Option (String × Option String) :=
  let key := trimChars (line.takeWhile fun c => !separates c)
  let value := match line.dropWhile fun c => !separates c with
    | _ :: v => some (String.ofList (trimChars v))
    | [] => none
  if key.isEmpty then none else some (lower (String.ofList key), value)

/-- Reads one line, in the section `sec`. None if the line cannot be read. -/
def readLine (sec : String) (line : List Char) : Option (String × List Setting) :=
  let text := content line
  match text with
  | [] => some (sec, [])
  | '[' :: _ => (sectionName? text).map fun name => (name, [])
  | _ => (keyValue? text).map fun (key, value) => (sec, [⟨sec, key, value⟩])

/-- Reads lines from the section `sec` on. -/
def readLines (sec : String) : List (List Char) → Option Ini
  | [] => some []
  | l :: ls => do
    let (sec, settings) ← readLine sec l
    return settings ++ (← readLines sec ls)

/-- Reads a file. -/
def read? (text : String) : Option Ini := readLines firstSection (lines text.toList)

end Ini

end TickBacktest.Config
