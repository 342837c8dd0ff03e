import TickBacktest.Json.Source

/-! # Records in documents

A record with named fields is written as an object, where other keys are passed over and no field
may stand twice, or as an array of its fields in order, where fields at the end may be left out. -/

namespace TickBacktest.Json.Source

/-- The value of a field among entries; none if it stands there more than once. -/
def field? (entries : List (Option String × Source)) (name : String) : Option (Option Source) :=
  match entries.filter (·.1 = some name) with
  | [] => some none
  | [(_, x)] => some (some x)
  | _ => none

/-- The fields of a record by name; a field that is left out has no value. -/
def record? (names : List String) : Source → Option (List (Option Source))
  | .object entries =>
    if entries.all (·.1.isSome) then names.mapM (field? entries) else none
  | .array items =>
    if items.length ≤ names.length then
      some (items.map some ++ List.replicate (names.length - items.length) none)
    else none
  | _ => none

/-- A text that may be left out or null. -/
def optionalText? : Option Source → Option (Option String)
  | none | some .null => some none
  | some (.text s) => s.map some
  | some _ => none

/-- A list that may be left out, but not null. -/
def listOf? {α : Type} (read : Source → Option α) : Option Source → Option (List α)
  | none => some []
  | some (.array items) => items.mapM read
  | some _ => none

/-- A value that may be left out or null, nested no deeper than `depth`. -/
def optionalJson? (depth : Nat) : Option Source → Option (Option Json)
  | none | some .null => some none
  | some x => (x.toJson? depth).map some

end TickBacktest.Json.Source
