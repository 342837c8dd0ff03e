import TickBacktest.Decimal.Reading
import TickBacktest.Json.Reader
import TickBacktest.Json.Record
import TickBacktest.Market.Tick
import TickBacktest.Text.Delimited
import TickBacktest.Text.Search

/-! # Market data

Ticks come from a table with a header or from an object of columns. In a table the columns are found
by their names, in any case: a time `t` or `time`, `mid` and `spread` must be there; `best_bid`,
`best_ask` and `quantity` or `volume` may be; others are passed over. An object has a list for each
field, all of one length, with `null` for a missing value.

A missing value is a NaN, a missing column of volumes is all zeros. -/

namespace TickBacktest.Market

open Json (Source)

/-- Why market data cannot be used. -/
inductive DataError where
  | unreadable (file reason : String)
  | notColumns
  | unequalColumn (name : String) (length expected : Nat)
  | missingColumn (name : String)
  | unequalRecord
  | badCell (name cell : String) (row : Nat)

/-- The reason, without details of the format. -/
def DataError.reason : DataError → String
  | unreadable file reason => s!"failed to read {file}: {reason}"
  | notColumns => "invalid market JSON"
  | unequalColumn name length expected =>
    s!"column {name} has {length} values, expected {expected}"
  | missingColumn name => s!"missing {name} column"
  | unequalRecord => "CSV parse error"
  | badCell name cell row => s!"invalid {name} value '{cell}' on row {row}"

def DataError.message (e : DataError) : String := s!"market data error: {e.reason}"

/-- The value that stands for a missing number. -/
def missing : Float := 0 / 0

/-! ## Tables -/

/-- Whether two names are equal up to the case of ASCII letters. -/
def sameName (s t : String) : Bool := s.toList.map Char.toLower = t.toList.map Char.toLower

/-- The place of a column in the header. -/
def column? (header : List String) (name : String) : Option Nat := header.findIdx? (sameName name)

/-- The number in a cell; an empty cell and `nan` are missing. -/
def cell? (cell : String) : Option Float :=
  if cell.isEmpty || sameName cell "nan" then some missing else Decimal.float? cell.toList

/-- Where the columns of a table are. -/
structure Columns where
  time : Nat
  mid : Nat
  spread : Nat
  bestBid : Option Nat
  bestAsk : Option Nat
  volume : Option Nat
  deriving DecidableEq, Repr

/-- A column that must be there. -/
def requiredColumn (header : List String) (name : String) : Except DataError Nat :=
  match column? header name with
  | some i => .ok i
  | none => .error (.missingColumn name)

/-- The columns of a header. -/
def columns (header : List String) : Except DataError Columns := do
  let time ← match column? header "t" with
    | some i => .ok i
    | none => requiredColumn header "time"
  return {
    time := time
    mid := ← requiredColumn header "mid"
    spread := ← requiredColumn header "spread"
    bestBid := column? header "best_bid"
    bestAsk := column? header "best_ask"
    volume := (column? header "quantity").or (column? header "volume") }

/-- The number in a column of a record; a column that is not there is missing. -/
def numberAt (record : List String) (row : Nat) (name : String) (index : Option Nat) :
    Except DataError Float :=
  match index.bind (record[·]?) with
  | none => .ok missing
  | some cell =>
    match cell? cell with
    | some x => .ok x
    | none => .error (.badCell name cell row)

/-- The tick of a record. -/
def tickOfRecord (cs : Columns) (record : List String) (row : Nat) :
    Except DataError (Tick Float) := do
  return {
    time := ← numberAt record row "t" (some cs.time)
    mid := ← numberAt record row "mid" (some cs.mid)
    spread := ← numberAt record row "spread" (some cs.spread)
    bestBid := ← numberAt record row "best_bid" cs.bestBid
    bestAsk := ← numberAt record row "best_ask" cs.bestAsk
    volume := ← if cs.volume.isNone then .ok 0 else numberAt record row "quantity" cs.volume }

/-- The ticks of records, which must be as long as the header. Rows are counted from 1. -/
def ticksOfTable (header : List String) (records : List (List String)) :
    Except DataError (List (Tick Float)) := do
  let cs ← columns header
  (records.zipIdx 1).mapM fun (record, row) =>
    if record.length = header.length then tickOfRecord cs record row else .error .unequalRecord

/-- The ticks of a comma-separated text. Blanks around cells do not count. -/
def ticksOfCsv (text : String) : Except DataError (List (Tick Float)) :=
  match (Text.Delimited.records text).map (·.map Text.trim) with
  | [] => ticksOfTable [] []
  | header :: records => ticksOfTable header records

/-! ## Columns -/

/-- A column of a document: numbers, and `null` for a missing value. -/
def columnOf? : Source → Option (List (Option Float))
  | .array items => items.mapM fun
    | .null => some none
    | .number n => n.map fun x => some x.toFloat
    | _ => none
  | _ => none

/-- A column that may be left out or null. -/
def optionalColumn? : Option Source → Option (Option (List (Option Float)))
  | none | some .null => some none
  | some x => (columnOf? x).map some

/-- The columns of a document, those that must be there first. -/
structure ColumnData where
  time : List (Option Float)
  mid : List (Option Float)
  spread : List (Option Float)
  bestBid : Option (List (Option Float))
  bestAsk : Option (List (Option Float))
  quantity : Option (List (Option Float))

/-- Reads the columns of a document. -/
def ColumnData.ofSource? (x : Source) : Option ColumnData := do
  match ← x.record? ["t", "mid", "spread", "best_bid", "best_ask", "quantity"] with
  | [t, mid, spread, bestBid, bestAsk, quantity] =>
    return ⟨← columnOf? (← t), ← columnOf? (← mid), ← columnOf? (← spread),
      ← optionalColumn? bestBid, ← optionalColumn? bestAsk, ← optionalColumn? quantity⟩
  | _ => none

namespace ColumnData

/-- The columns that must be as long as the times, with their names. -/
def others (d : ColumnData) : List (String × Nat) :=
  [("mid", some d.mid), ("spread", some d.spread), ("best_bid", d.bestBid),
    ("best_ask", d.bestAsk), ("quantity", d.quantity)].filterMap fun (name, column) =>
      column.map fun c => (name, c.length)

/-- The values of a column of `n` rows, with `otherwise` for what is missing. -/
def values (n : Nat) (otherwise : Float) : Option (List (Option Float)) → List Float
  | some c => c.map (·.getD otherwise)
  | none => List.replicate n otherwise

/-- The ticks of the columns. -/
def ticks (d : ColumnData) : Except DataError (List (Tick Float)) :=
  let n := d.time.length
  match d.others.find? fun (_, length) => length ≠ n with
  | some (name, length) => .error (.unequalColumn name length n)
  | none =>
    let times := values n missing (some d.time)
    let mids := values n missing (some d.mid)
    let spreads := values n missing (some d.spread)
    let bids := values n missing d.bestBid
    let asks := values n missing d.bestAsk
    let volumes := values n 0 d.quantity
    .ok ((times.zip (mids.zip (spreads.zip (bids.zip (asks.zip volumes))))).map
      fun (time, mid, spread, bestBid, bestAsk, volume) =>
        { time, mid, spread, bestBid, bestAsk, volume })

end ColumnData

/-- The ticks of a document of columns. -/
def ticksOfJson (text : String) : Except DataError (List (Tick Float)) :=
  match (Json.read? text).bind ColumnData.ofSource? with
  | some d => d.ticks
  | none => .error .notColumns

end TickBacktest.Market
