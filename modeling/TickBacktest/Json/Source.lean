import TickBacktest.Json.Number

/-! # JSON documents

Two trees. `Source` is a document as it stands: the entries of an object in their order, repeated
keys among them, and a place for numbers and texts that can be skipped but not used, a number too
large for a double and a text with half a surrogate pair. `Json` is a value: what a document means
where any value is wanted, or what is to be written. -/

namespace TickBacktest

/-- A JSON value. The keys of an object are written in the order given. -/
inductive Json where
  | null
  | bool (b : Bool)
  | number (n : Json.Number)
  | text (s : String)
  | array (items : List Json)
  | object (entries : List (String × Json))

namespace Json

/-- A JSON document as it stands. -/
inductive Source where
  | null
  | bool (b : Bool)
  | number (n : Option Number)
  | text (s : Option String)
  | array (items : List Source)
  | object (entries : List (Option String × Source))

/-- Puts an entry into entries sorted by key. A later entry replaces one of the same key. -/
def insertSorted (key : String) (value : Json) : List (String × Json) → List (String × Json)
  | [] => [(key, value)]
  | (k, v) :: es =>
    if key = k then (key, value) :: es
    else if key < k then (key, value) :: (k, v) :: es
    else (k, v) :: insertSorted key value es

/-- The deepest nesting of arrays and objects that a value may have. -/
def maxNesting : Nat := 127

mutual

/-- The value that a document means, if arrays and objects nest no deeper than `depth` and every
number and text in it can be used. The keys of an object are sorted, the last of equal ones
counts. -/
def Source.toJson? (depth : Nat) : Source → Option Json
  | .null => some .null
  | .bool b => some (.bool b)
  | .number n => n.map .number
  | .text s => s.map .text
  | .array items =>
    match depth with
    | 0 => none
    | d + 1 => (itemsToJson? d items).map .array
  | .object entries =>
    match depth with
    | 0 => none
    | d + 1 => (entriesToJson? d [] entries).map .object

def itemsToJson? (depth : Nat) : List Source → Option (List Json)
  | [] => some []
  | x :: xs => do
    let y ← x.toJson? depth
    return y :: (← itemsToJson? depth xs)

def entriesToJson? (depth : Nat) (sorted : List (String × Json)) :
    List (Option String × Source) → Option (List (String × Json))
  | [] => some sorted
  | (key, x) :: xs => do
    let y ← x.toJson? depth
    entriesToJson? depth (insertSorted (← key) y sorted) xs

end

mutual

/-- The document that a value is written as. -/
def toSource : Json → Source
  | .null => .null
  | .bool b => .bool b
  | .number n => .number (some n)
  | .text s => .text (some s)
  | .array items => .array (itemsToSource items)
  | .object entries => .object (entriesToSource entries)

def itemsToSource : List Json → List Source
  | [] => []
  | x :: xs => x.toSource :: itemsToSource xs

def entriesToSource : List (String × Json) → List (Option String × Source)
  | [] => []
  | (key, x) :: xs => (some key, x.toSource) :: entriesToSource xs

end

/-! ## Values to write -/

/-- A whole number. -/
def ofInt (n : Int) : Json := .number (.integer n)

/-- A natural number. -/
def ofNat (n : Nat) : Json := .number (.integer n)

/-- A double. -/
def ofFloat (x : Float) : Json := .number (.float x)

/-- A list of texts. -/
def ofTexts (ss : List String) : Json := .array (ss.map .text)

end Json

end TickBacktest
