/-! # Searching in a text

Whether one text occurs inside another, and texts joined with a separator. -/

namespace TickBacktest.Text

/-- Whether `part` occurs in `cs` without a gap. -/
def occursIn (part cs : List Char) : Bool :=
  part.isPrefixOf cs ||
    match cs with
    | [] => false
    | _ :: more => occursIn part more

theorem occursIn_iff {part cs : List Char} : occursIn part cs = true ↔ part <:+: cs := by
  induction cs with
  | nil => simp [occursIn]
  | cons c cs ih => simp [occursIn, ih, List.infix_cons_iff]

/-- Whether `part` occurs in `s`. -/
def contains (s part : String) : Bool := occursIn part.toList s.toList

/-- The texts with a separator between them. -/
def join (separator : String) (parts : List String) : String := separator.intercalate parts

end TickBacktest.Text
