/-! # Syntax errors

Why a text is not an expression, and where. The place is a byte offset into the text, written in
UTF-8; it is the start of the part of the text that was still unread when the error was found. -/

namespace TickBacktest.Expression

/-- Why a text is not an expression. -/
inductive SyntaxFault where
  | emptyExpression
  | tooComplex
  | unexpected (c : Char)
  | unexpectedEnd
  | unterminatedText
  | expected (c : Char) (found : Option Char)
  | expectedEither (c d : Char) (found : Option Char)
  | expectedIdentifier (found : Option Char)
  | repeatedKeyword (name : String)
  | positionalAfterKeyword
  | trailing (rest : List Char)
  deriving DecidableEq, Repr

/-- What stands in the place of something expected. -/
def foundText : Option Char → String
  | some c => s!"'{c}'"
  | none => "end of input"

def SyntaxFault.message : SyntaxFault → String
  | emptyExpression => "empty expression"
  | tooComplex => "expression too complex"
  | unexpected c => s!"unexpected '{c}'"
  | unexpectedEnd => "unexpected end of input"
  | unterminatedText => "unterminated string literal"
  | expected c found => s!"expected '{c}', found {foundText found}"
  | expectedEither c d found => s!"expected '{c}' or '{d}', found {foundText found}"
  | expectedIdentifier found => s!"expected identifier, found {foundText found}"
  | repeatedKeyword name => s!"keyword argument repeated: '{name}'"
  | positionalAfterKeyword => "positional argument follows keyword argument"
  | trailing rest => s!"unexpected input after expression: '{String.ofList rest}'"

/-- A fault and its byte offset in the text. -/
structure SyntaxError where
  fault : SyntaxFault
  position : Nat
  deriving DecidableEq, Repr

namespace SyntaxError

/-- The fault with its place. -/
def message (e : SyntaxError) : String :=
  s!"parse error at position {e.position}: {e.fault.message}"

/-- The text, a caret after as many spaces as the position says, and the message. -/
def context (e : SyntaxError) (text : String) : String :=
  text ++ "\n" ++ String.ofList (List.replicate e.position ' ') ++ "^\n" ++ e.message

end SyntaxError

/-- The number of bytes of a text in UTF-8. -/
def utf8Length (cs : List Char) : Nat := cs.foldl (fun n c => n + c.utf8Size) 0

end TickBacktest.Expression
