import TickBacktest.Decimal.Reading

/-! # Command line arguments

The commands and their options. An option is given by its long name, `--market m.csv` or
`--market=m.csv`, or by a letter, `-m m.csv`, `-m=m.csv` or `-mm.csv`. A value that stands alone may
not look like an option, but a single `-` is a value. After `--` everything is a plain argument.
Options come at most once, except those that collect a list. -/

namespace TickBacktest.CommandLine

/-! ## Options -/

/-- How many values an option takes. -/
inductive Arity where
  | flag
  | single
  | list
  deriving DecidableEq, Repr

/-- An option of a command. -/
structure OptionSpec where
  long : String
  short : Option Char
  arity : Arity
  deriving Repr

/-- An option that is given, with the values it got; a flag has none. -/
structure Given where
  name : String
  values : List String
  deriving Repr

/-- The arguments of a command: options in order, and plain arguments. -/
structure Scanned where
  options : List Given
  plain : List String
  deriving Repr

/-- Whether an argument is taken as a value: it does not start with `-`, or is just that. -/
def isValue (arg : String) : Bool :=
  match arg.toList with
  | '-' :: _ :: _ => false
  | _ => true

/-- The option that an argument names, and the value attached to it. Of `-m=x` and `-mx` the value
is `x`. -/
def optionOf? (specs : List OptionSpec) (arg : String) : Option (OptionSpec × Option String) :=
  match arg.toList with
  | '-' :: '-' :: cs =>
    let name := String.ofList (cs.takeWhile (· ≠ '='))
    let attached := match cs.dropWhile (· ≠ '=') with
      | _ :: value => some (String.ofList value)
      | [] => none
    (specs.find? (·.long = name)).map fun spec => (spec, attached)
  | '-' :: c :: cs =>
    let attached := match cs with
      | [] => none
      | '=' :: value => some (String.ofList value)
      | value => some (String.ofList value)
    (specs.find? (·.short = some c)).map fun spec => (spec, attached)
  | _ => none

/-- What an argument means to those that come before it. -/
inductive Awaiting where
  | anything
  | value (spec : OptionSpec)
  | more (spec : OptionSpec)
  deriving Repr

namespace Scanned

def nothing : Scanned := ⟨[], []⟩

/-- Adds an option in front. -/
def withOption (spec : OptionSpec) (values : List String) (s : Scanned) : Scanned :=
  { s with options := ⟨spec.long, values⟩ :: s.options }

/-- Adds a plain argument in front. -/
def withPlain (arg : String) (s : Scanned) : Scanned := { s with plain := arg :: s.plain }

end Scanned

/-- Scans arguments. An option without an attached value awaits one; after that value, an option
that collects a list takes further values that stand alone. None if an option is unknown, lacks its
value or is a flag with one. -/
def scan (specs : List OptionSpec) : Awaiting → List String → Option Scanned
  | .value _, [] => none
  | _, [] => some .nothing
  | .value spec, arg :: args =>
    if isValue arg then
      (scan specs (if spec.arity = .list then .more spec else .anything) args).map
        (.withOption spec [arg])
    else none
  | awaiting, arg :: args =>
    if arg = "--" then some ⟨[], args⟩
    else if isValue arg then
      match awaiting with
      | .more spec => (scan specs awaiting args).map (.withOption spec [arg])
      | _ => (scan specs .anything args).map (.withPlain arg)
    else
      match optionOf? specs arg with
      | none => none
      | some (spec, attached) =>
        match spec.arity, attached with
        | .flag, some _ => none
        | .flag, none => (scan specs .anything args).map (.withOption spec [])
        | _, some value => (scan specs .anything args).map (.withOption spec [value])
        | _, none => scan specs (.value spec) args

namespace Scanned

/-- All values of an option. -/
def values (s : Scanned) (name : String) : List String :=
  (s.options.filter (·.name = name)).flatMap (·.values)

/-- How often an option is given. -/
def count (s : Scanned) (name : String) : Nat := s.options.countP (·.name = name)

/-- Whether options that are not lists are given at most once. -/
def isOnce (s : Scanned) (specs : List OptionSpec) : Bool :=
  specs.all fun spec => spec.arity = .list || s.count spec.long ≤ 1

/-- The value of an option, if it is given. -/
def value? (s : Scanned) (name : String) : Option String := (s.values name).head?

end Scanned

/-! ## Commands -/

/-- What the program is asked to do. -/
inductive Command where
  | backtest (market strategy : String) (config output : Option String) (cost : Option Float)
  | validate (strategy : String) (json : Bool)
  | checkExpr (expression : String) (explain : Bool)
  | templates (id : Option String)
  | compare (market : String) (strategies : List String) (config : Option String)

namespace Command

def market : OptionSpec := ⟨"market", some 'm', .single⟩

def strategy : OptionSpec := ⟨"strategy", some 's', .single⟩

def strategies : OptionSpec := ⟨"strategy", some 's', .list⟩

def config : OptionSpec := ⟨"config", some 'c', .single⟩

def output : OptionSpec := ⟨"output", some 'o', .single⟩

def transactionCost : OptionSpec := ⟨"transaction-cost", none, .single⟩

def json : OptionSpec := ⟨"json", none, .flag⟩

def explain : OptionSpec := ⟨"explain", none, .flag⟩

def showTemplate : OptionSpec := ⟨"show", none, .single⟩

/-- The arguments of a command with these options and so many plain arguments. -/
def scanFor (specs : List OptionSpec) (plain : Nat) (args : List String) : Option Scanned :=
  (scan specs .anything args).filter fun s => s.isOnce specs && s.plain.length = plain

/-- A path, which must not be empty. -/
def path? (s : String) : Option String := if s.isEmpty then none else some s

/-- The path of an option, if it is given. -/
def optionalPath? (s : Scanned) (name : String) : Option (Option String) :=
  match s.value? name with
  | none => some none
  | some p => (path? p).map some

/-- The number of an option, if it is given. -/
def optionalNumber? (s : Scanned) (name : String) : Option (Option Float) :=
  match s.value? name with
  | none => some none
  | some n => (Decimal.float? n.toList).map some

/-- The command that arguments ask for. -/
def parse? : List String → Option Command
  | "backtest" :: args => do
    let s ← scanFor [market, strategy, config, output, transactionCost] 0 args
    return .backtest (← path? (← s.value? "market")) (← path? (← s.value? "strategy"))
      (← optionalPath? s "config") (s.value? "output") (← optionalNumber? s "transaction-cost")
  | "validate" :: args => do
    let s ← scanFor [strategy, json] 0 args
    return .validate (← path? (← s.value? "strategy")) (0 < s.count "json")
  | "check-expr" :: args => do
    let s ← scanFor [explain] 1 args
    return .checkExpr (← s.plain.head?) (0 < s.count "explain")
  | "templates" :: args => do
    let s ← scanFor [showTemplate] 0 args
    return .templates (s.value? "show")
  | "compare" :: args => do
    let s ← scanFor [market, strategies, config] 0 args
    let paths ← (s.values "strategy").mapM path?
    if paths.isEmpty then none
    else
      return .compare (← path? (← s.value? "market")) paths (← optionalPath? s "config")
  | _ => none

/-- How the commands are written. -/
def usage : String :=
  "error: the arguments ask for no command\n\n" ++
  "Usage:\n" ++
  "  backtest -m MARKET -s STRATEGY [-c CONFIG] [-o OUTPUT] [--transaction-cost COST]\n" ++
  "  validate -s STRATEGY [--json]\n" ++
  "  check-expr [--explain] EXPRESSION\n" ++
  "  templates [--show ID]\n" ++
  "  compare -m MARKET -s STRATEGY... [-c CONFIG]\n"

/-- The files that a command reads. -/
def inputs : Command → List String
  | .backtest market strategy config _ _ => config.toList ++ [strategy, market]
  | .validate strategy _ => [strategy]
  | .checkExpr _ _ | .templates _ => []
  | .compare market strategies config => config.toList ++ strategies ++ [market]

end Command

end TickBacktest.CommandLine
