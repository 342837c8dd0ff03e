import TickBacktest.Expression.Parser
import TickBacktest.Indicator.Function
import TickBacktest.Market.Variable
import TickBacktest.Text.LowerCase
import TickBacktest.Text.Search

/-! # The whitelist

An expression is accepted only if every part of it is on a list: number literals, the market
variables, the arithmetic operators other than floor division, signs, comparisons, and calls of the
indicator functions by name, none of them deeper than `maxDepth`. Before that the text is searched
for words that no honest expression contains.

A refusal names its reason, and where a likely fix is known a suggestion goes with it. -/

namespace TickBacktest.Expression

open Indicator (Function)
open Market (Variable)

/-- The deepest level that a node may have, the root being at level 0. -/
def maxDepth : Nat := 15

/-- Words that are refused anywhere in the lower case of a text, in the order they are looked
for. -/
def forbidden : List String :=
  ["__", "import", "eval", "exec", "compile", "open", "file", "input", "raw_input",
    "__builtins__", "globals", "locals", "vars", "dir", "help", "quit", "exit"]

/-- Why an expression is refused: in the check of it, or after that, where its names are resolved
(the last two, which say no more than the name). -/
inductive Refusal where
  | blank
  | forbidden (word : String)
  | tooComplex
  | syntaxError (e : SyntaxError)
  | text
  | unknownVariable (name : String)
  | operation (op : Operator)
  | computedCallee
  | unknownFunction (name : String)
  | kind (name : String)
  | unresolvedVariable (name : String)
  | unresolvedFunction (name : String)

/-- A likely fix. -/
inductive Suggestion where
  | midForPrice
  | averageFunction
  | deviationFunction
  | similar (name : String)
  deriving DecidableEq, Repr

/-! ## Names that look alike -/

/-- The first three letters of a name, in lower case. -/
def beginning (name : String) : List Char := (Text.lower name).toList.take 3

/-- The first variable that begins like `name`. -/
def similarVariable? (name : String) : Option Variable :=
  Variable.all.find? fun v => (beginning name).isPrefixOf (Text.lower v.name).toList

/-- The first function that begins like `name`. -/
def similarFunction? (name : String) : Option Function :=
  Function.all.find? fun f => (beginning name).isPrefixOf (Text.lower f.name).toList

/-- What to say about an unknown name: the known one that it resembles, or all that there are. -/
def unknown (what name : String) (similar : Option String) (available : List String) : String :=
  match similar with
  | some s => s!"{what} '{name}' not allowed. Did you mean '{s}'?"
  | none =>
    let list := Text.join ", " available
    s!"{what} '{name}' not allowed. Available: {list}"

def Refusal.message : Refusal → String
  | blank => "Expression cannot be empty"
  | forbidden word => s!"Forbidden pattern detected: '{word}'"
  | tooComplex => s!"Expression too complex (max depth: {maxDepth})"
  | syntaxError e => s!"Syntax error: {e.message}"
  | text => "Only numeric constants allowed, got string"
  | unknownVariable name =>
    unknown "Variable" name ((similarVariable? name).map (·.name)) (Variable.all.map (·.name))
  | operation op => s!"Operation '{op.symbol}' not allowed"
  | computedCallee => "Complex function calls not allowed"
  | unknownFunction name =>
    unknown "Function" name ((similarFunction? name).map (·.name)) (Function.all.map (·.name))
  | kind k => s!"Expression type '{k}' not allowed"
  | unresolvedVariable name => s!"Variable '{name}' not allowed"
  | unresolvedFunction name => s!"Function '{name}' not allowed"

def Suggestion.message : Suggestion → String
  | midForPrice => "Use 'mid' instead of 'price'"
  | averageFunction => "Use 'SMA(mid, window)' for moving average"
  | deviationFunction => "Use 'STD(mid, window)' for standard deviation"
  | similar name => s!"Did you mean '{name}'?"

/-! ## The check -/

mutual

/-- Whether everything in a tree whose root is at level `depth` is on the whitelist. -/
def check (depth : Nat) (node : Node) : Except Refusal Unit :=
  if maxDepth < depth then .error .tooComplex
  else
    match node with
    | .number _ => .ok ()
    | .text _ => .error .text
    | .name s => if (Variable.ofName? s).isSome then .ok () else .error (.unknownVariable s)
    | .binary op left right => do
      if op.allowed then
        check (depth + 1) left
        check (depth + 1) right
      else .error (.operation op)
    | .signed _ operand => check (depth + 1) operand
    | .call (.name s) args keywords => do
      if (Function.ofName? s).isSome then
        checkList (depth + 1) args
        checkKeywords (depth + 1) keywords
      else .error (.unknownFunction s)
    | .call _ _ _ => .error .computedCallee
    | .compare first links => do
      check (depth + 1) first
      checkLinks (depth + 1) links
    | .member _ _ | .subscript _ _ | .list _ => .error (.kind node.kind)

def checkList (depth : Nat) : List Node → Except Refusal Unit
  | [] => .ok ()
  | n :: ns => do
    check depth n
    checkList depth ns

def checkKeywords (depth : Nat) : List (String × Node) → Except Refusal Unit
  | [] => .ok ()
  | (_, n) :: ns => do
    check depth n
    checkKeywords depth ns

def checkLinks (depth : Nat) : List (Comparison × Node) → Except Refusal Unit
  | [] => .ok ()
  | (_, n) :: ns => do
    check depth n
    checkLinks depth ns

end

/-! ## Suggestions -/

/-- The fix for a common wording, found in the text alone. -/
def wording? (text : String) : Option Suggestion :=
  let low := Text.lower text
  if Text.contains low "price" then some .midForPrice
  else if Text.contains low "average" || Text.contains low "avg" then some .averageFunction
  else if Text.contains low "stddev" then some .deviationFunction
  else none

/-- The known function that the callee of a node resembles, if the callee is unknown. -/
def calleeFix? : Node → Option Suggestion
  | .call (.name s) _ _ =>
    if (Function.ofName? s).isSome then none
    else (similarFunction? s).map fun f => .similar f.name
  | _ => none

/-- The variable that a name resembles, if the name is unknown. -/
def nameFix? : Node → Option Suggestion
  | .name s =>
    if (Variable.ofName? s).isSome || (Function.ofName? s).isSome then none
    else (similarVariable? s).map fun v => .similar v.name
  | _ => none

/-- The first unknown name in the tree that resembles a known one, callees before others. -/
def didYouMean? (node : Node) : Option Suggestion :=
  (node.nodes.findSome? calleeFix?).or (node.nodes.findSome? nameFix?)

/-! ## Accepting a text -/

/-- A refusal with its suggestion. -/
structure Rejection where
  refusal : Refusal
  suggestion : Option Suggestion

/-- The message of a rejection, as an evaluation reports it. -/
def Rejection.message (r : Rejection) : String := s!"invalid expression: {r.refusal.message}"

/-- The forbidden word that a text contains. -/
def forbiddenWord? (text : String) : Option String :=
  let low := Text.lower text
  forbidden.find? fun word => Text.contains low word

/-- The tree of a text that is accepted, or why it is rejected. -/
def accept (text : String) : Except Rejection Node :=
  if (Text.trim text).isEmpty then .error ⟨.blank, none⟩
  else
    match forbiddenWord? text with
    | some word => .error ⟨.forbidden word, none⟩
    | none =>
      match parse text with
      | .error e =>
        if e.fault = .tooComplex then .error ⟨.tooComplex, none⟩
        else .error ⟨.syntaxError e, wording? text⟩
      | .ok node =>
        match check 0 node with
        | .error refusal => .error ⟨refusal, (wording? text).or (didYouMean? node)⟩
        | .ok () => .ok node

/-- What is reported of a text: that it is accepted, or why it is not and what may help. -/
structure Validation where
  ok : Bool
  error : Option String
  suggestion : Option String

/-- The report on a text. -/
def validate (text : String) : Validation :=
  match accept text with
  | .ok _ => ⟨true, none, none⟩
  | .error r => ⟨false, some r.refusal.message, r.suggestion.map (·.message)⟩

end TickBacktest.Expression
