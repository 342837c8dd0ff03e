import TickBacktest.Decimal.Plain
import TickBacktest.Expression.Node
import TickBacktest.Text.Quoted

/-! # Trees as text

Every operation stands in parentheses, so the text shows how the tree is grouped; signs,
comparisons, calls and the rest are written as in an expression. -/

namespace TickBacktest.Expression.Node

/-- The parts of a list with a comma and a space between them. -/
def commaSeparated (parts : List (List Char)) : List Char := [',', ' '].intercalate parts

mutual

/-- The text of a tree. -/
def print : Node → List Char
  | number value => Decimal.plainChars value
  | text s => (Text.quoted s).toList
  | name s => s.toList
  | binary op left right =>
    '(' :: left.print ++ ' ' :: op.symbol.toList ++ ' ' :: right.print ++ [')']
  | signed sign operand => sign.symbol.toList ++ operand.print
  | call callee args keywords =>
    callee.print ++ '(' :: commaSeparated (printList args ++ printKeywords keywords) ++ [')']
  | compare first links => first.print ++ printLinks links
  | member value field => value.print ++ '.' :: field.toList
  | subscript value index => value.print ++ '[' :: index.print ++ [']']
  | list items => '[' :: commaSeparated (printList items) ++ [']']

def printList : List Node → List (List Char)
  | [] => []
  | n :: ns => n.print :: printList ns

def printKeywords : List (String × Node) → List (List Char)
  | [] => []
  | (key, n) :: ns => (key.toList ++ '=' :: n.print) :: printKeywords ns

def printLinks : List (Comparison × Node) → List Char
  | [] => []
  | (op, n) :: ns => ' ' :: op.symbol.toList ++ ' ' :: n.print ++ printLinks ns

end

/-- The text of a tree. -/
def display (n : Node) : String := String.ofList n.print

end TickBacktest.Expression.Node
