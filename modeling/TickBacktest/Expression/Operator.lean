/-! # Operators

The operators of the expression language: seven arithmetic ones, of which floor division can be
written but is never allowed, the two signs, and the six comparisons, which rules use as well. -/

namespace TickBacktest.Expression

/-- An arithmetic operator between two operands. -/
inductive Operator where
  | add
  | sub
  | mul
  | div
  | pow
  | mod
  | floorDiv
  deriving DecidableEq, Repr

/-- How the operator is written. A power may also be written `**`. -/
def Operator.symbol : Operator → String
  | add => "+"
  | sub => "-"
  | mul => "*"
  | div => "/"
  | pow => "^"
  | mod => "%"
  | floorDiv => "//"

/-- The operators that a strategy may use: all but floor division. -/
def Operator.allowed : Operator → Bool
  | floorDiv => false
  | _ => true

/-- A sign in front of an operand. -/
inductive Sign where
  | minus
  | plus
  deriving DecidableEq, Repr

def Sign.symbol : Sign → String
  | minus => "-"
  | plus => "+"

/-- A comparison of two numbers. -/
inductive Comparison where
  | gt
  | lt
  | ge
  | le
  | eq
  | ne
  deriving DecidableEq, Repr

namespace Comparison

def all : List Comparison := [gt, lt, ge, le, eq, ne]

def symbol : Comparison → String
  | gt => ">"
  | lt => "<"
  | ge => ">="
  | le => "<="
  | eq => "=="
  | ne => "!="

/-- The comparison written so, if there is one. -/
def ofSymbol? (s : String) : Option Comparison := all.find? (·.symbol = s)

/-- The comparison as it stands inside an expression. Nothing but `ne` holds of a NaN. -/
def holds (op : Comparison) (x y : Float) : Bool :=
  match op with
  | gt => y < x
  | lt => x < y
  | ge => y ≤ x
  | le => x ≤ y
  | eq => x == y
  | ne => x != y

/-- The comparison of a rule, where values less than `epsilon` apart count as equal. -/
def holdsWithin (epsilon : Float) (op : Comparison) (x y : Float) : Bool :=
  match op with
  | eq => (x - y).abs < epsilon
  | ne => epsilon ≤ (x - y).abs
  | _ => op.holds x y

theorem mem_all (op : Comparison) : op ∈ all := by cases op <;> decide

end Comparison

end TickBacktest.Expression
