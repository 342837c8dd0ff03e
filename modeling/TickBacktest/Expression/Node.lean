import TickBacktest.Expression.Operator

/-! # Syntax trees

The tree of an expression as it is written. The language of the reader is larger than that of
strategies: attributes, subscripts, texts, lists and floor division have a place in the tree so that
they can be refused by kind (`Expression.Whitelist`).

`Node.nodes` lists a tree with the root first and the parts of each node from left to right;
`Node.height` is the longest way down from the root. -/

namespace TickBacktest.Expression

/-- An expression as it is written. A comparison is a chain: its first operand and the links. -/
inductive Node where
  | number (value : Float)
  | text (value : String)
  | name (name : String)
  | binary (op : Operator) (left right : Node)
  | signed (sign : Sign) (operand : Node)
  | call (callee : Node) (args : List Node) (keywords : List (String × Node))
  | compare (first : Node) (links : List (Comparison × Node))
  | member (value : Node) (field : String)
  | subscript (value index : Node)
  | list (items : List Node)

namespace Node

/-- What a reader of a message calls the node. -/
def kind : Node → String
  | number _ => "number"
  | text _ => "string literal"
  | name _ => "name"
  | binary .. => "binary operation"
  | signed .. => "unary operation"
  | call .. => "function call"
  | compare .. => "comparison"
  | member .. => "attribute access"
  | subscript .. => "subscript"
  | list _ => "list"

mutual

/-- The node and all nodes below it, the root first, its parts from left to right. -/
def nodes : Node → List Node
  | n@(number _) | n@(text _) | n@(name _) => [n]
  | n@(binary _ left right) => n :: (left.nodes ++ right.nodes)
  | n@(signed _ operand) => n :: operand.nodes
  | n@(call callee args keywords) =>
    n :: (callee.nodes ++ nodesOfList args ++ nodesOfKeywords keywords)
  | n@(compare first links) => n :: (first.nodes ++ nodesOfLinks links)
  | n@(member value _) => n :: value.nodes
  | n@(subscript value index) => n :: (value.nodes ++ index.nodes)
  | n@(list items) => n :: nodesOfList items

def nodesOfList : List Node → List Node
  | [] => []
  | n :: ns => n.nodes ++ nodesOfList ns

def nodesOfKeywords : List (String × Node) → List Node
  | [] => []
  | (_, n) :: ns => n.nodes ++ nodesOfKeywords ns

def nodesOfLinks : List (Comparison × Node) → List Node
  | [] => []
  | (_, n) :: ns => n.nodes ++ nodesOfLinks ns

end

mutual

/-- The number of steps from the root to the deepest node. -/
def height : Node → Nat
  | number _ | text _ | name _ => 0
  | binary _ left right => max left.height right.height + 1
  | signed _ operand => operand.height + 1
  | call callee args keywords =>
    max callee.height (max (heightOfList args) (heightOfKeywords keywords)) + 1
  | compare first links => max first.height (heightOfLinks links) + 1
  | member value _ => value.height + 1
  | subscript value index => max value.height index.height + 1
  | list items => heightOfList items + 1

def heightOfList : List Node → Nat
  | [] => 0
  | n :: ns => max n.height (heightOfList ns)

def heightOfKeywords : List (String × Node) → Nat
  | [] => 0
  | (_, n) :: ns => max n.height (heightOfKeywords ns)

def heightOfLinks : List (Comparison × Node) → Nat
  | [] => 0
  | (_, n) :: ns => max n.height (heightOfLinks ns)

end

end Node

end TickBacktest.Expression
