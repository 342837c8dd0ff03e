import TickBacktest.CommandLine.Arguments
import TickBacktest.CommandLine.Disk
import TickBacktest.Config.RunConfig
import TickBacktest.Decimal.Fixed
import TickBacktest.Market.Table
import TickBacktest.Report
import TickBacktest.Strategy.Template

/-! # Sessions

What the program does with a command: which files it reads, what it prints on both streams, the
status it exits with, and the report it writes. Results go to the output, everything else to the
error stream. A session reads through a function from paths to texts and ends in a plan; the report
is written last, and what is printed after that depends on whether it could be written. -/

namespace TickBacktest.CommandLine

open Backtest (Metrics)
open Config (RunConfig)
open Decimal (fixed alignLeft alignRight)
open Market (Tick)
open Strategy (Spec Definition)

/-! ## Failures -/

/-- Why a command fails. -/
inductive Failure where
  | configUnreadable (file reason : String)
  | configValue (e : Config.ValueError)
  | strategyUnreadable (file reason : String)
  | strategyDefects (ds : List Strategy.Defect)
  | market (e : Market.DataError)
  | run (e : Strategy.RunError)
  | report (reason : String)

namespace Failure

/-- The status that the program exits with; after a crash it is the one of its runtime. -/
def exitStatus : Failure → Nat
  | report _ => 1
  | configUnreadable .. | configValue _ => 2
  | market _ => 3
  | strategyUnreadable .. | strategyDefects _ | run (.rejected _) => 4
  | run (.fault (.tooFewTicks _)) => 5
  | run (.fault (.capacityOverflow _)) => 101

def message : Failure → String
  | configUnreadable file reason => s!"config parse error in {file}: {reason}"
  | configValue e => e.message
  | strategyUnreadable file reason => s!"failed to load strategy from {file}: {reason}"
  | strategyDefects ds => Strategy.defectsMessage ds
  | market e => e.message
  | run e => e.message
  | report reason => s!"report error: {reason}"

/-- The last line on the error stream. A crash is not announced as an error of the program. -/
def line : Failure → String
  | run (.fault (.capacityOverflow e)) => e.message
  | f => s!"error: {f.message}"

end Failure

/-! ## The console -/

/-- What has been printed on the output and on the error stream. -/
structure Console where
  out : String
  err : String
  deriving Repr

/-- A part of a session: it prints, and it may fail. -/
abbrev Session := ExceptT Failure (StateM Console)

namespace Session

/-- Prints a line on the output. -/
def out (line : String) : Session Unit := modify fun c => { c with out := c.out ++ line ++ "\n" }

/-- Prints a line on the error stream. -/
def err (line : String) : Session Unit := modify fun c => { c with err := c.err ++ line ++ "\n" }

end Session

open Session (out err)

/-- What is left to do at the end of a session: exit with a status, or write a report first. -/
inductive Plan where
  | exit (status : Nat)
  | write (path text : String)
  deriving Repr

/-- Gives texts to the paths of files that can be read. -/
abbrev Reader := String → Except SystemFault String

/-! ## Loading -/

/-- The run configuration of a file, or the standard one without a file. -/
def loadConfig (read : Reader) (file : Option String) : Session RunConfig := do
  let settings : Config.Ini ← match file with
    | none => pure []
    | some f =>
      err s!"Loading config from {f}"
      match read f with
      | .error e => throw (.configUnreadable f s!"couldn't read {f}: {e.message}")
      | .ok text =>
        match Config.Ini.read? text with
        | none => throw (.configUnreadable f "a line that is neither a section nor a setting")
        | some ini => pure ini
  match RunConfig.ofLookup settings.get with
  | .ok c => return c
  | .error e => throw (.configValue e)

/-- The strategy of a file, as authored. -/
def loadSpec (read : Reader) (file : String) : Session Spec :=
  match read file with
  | .error e => throw (.strategyUnreadable file e.message)
  | .ok text =>
    match (Json.read? text).bind Spec.ofSource? with
    | some s => return s
    | none => throw (.strategyUnreadable file "not a strategy document")

/-- The strategy of a file, checked; its warnings are printed. -/
def loadDefinition (read : Reader) (file : String) : Session Definition := do
  err s!"Loading strategy from {file}"
  let spec ← loadSpec read file
  for w in spec.warnings do
    err s!"warning: {w.message}"
  match spec.build with
  | .ok d => return d
  | .error ds => throw (.strategyDefects ds)

/-- Whether a file holds columns in JSON: by its extension, in any case. -/
def isJsonFile (file : String) : Bool :=
  match extensionOf? file with
  | some e => Market.sameName e "json"
  | none => false

/-- The market data of a file: columns in a `.json` file, else a table. -/
def loadMarket (read : Reader) (file : String) : Session (List (Tick Float)) := do
  err s!"Loading market data from {file}"
  let ticks : Except Market.DataError (List (Tick Float)) := match read file with
    | .error e => .error (.unreadable file e.message)
    | .ok text => if isJsonFile file then Market.ticksOfJson text else Market.ticksOfCsv text
  match ticks with
  | .error e => throw (Failure.market e)
  | .ok ts =>
    err s!"  {ts.length} ticks"
    return ts

/-! ## Commands -/

/-- A number with four places in a column of ten. -/
def figure (x : Float) : String := alignRight 10 (fixed 4 x)

/-- Prints the figures of a run. -/
def printSummary (run : Strategy.Run) (benchmark : Option (Backtest.Result Float)) :
    Session Unit := do
  let m := run.result.metrics
  let trades := alignRight 10 (toString m.numTrades)
  let rate := alignRight 10 (fixed 2 m.winRate)
  err s!"\n{run.strategy}"
  err s!"  Total return:   {figure m.totalReturn}%"
  err s!"  Sharpe ratio:   {figure m.sharpeRatio}"
  err s!"  Sortino ratio:  {figure m.sortinoRatio}"
  err s!"  Max drawdown:   {figure m.maxDrawdown}%"
  err s!"  Trades:         {trades}"
  err s!"  Win rate:       {rate}%"
  let long := fixed 1 m.timeLong
  let short := fixed 1 m.timeShort
  let flat := fixed 1 m.timeFlat
  err s!"  Time long/short/flat: {long}% / {short}% / {flat}%"
  match benchmark with
  | some b => err s!"  Buy and hold:   {figure b.metrics.totalReturn}%"
  | none => pure ()
  for (id, r) in run.diagnostics do
    err s!"  warning: function '{id}' failed on {r.failures} ticks (first: {r.firstError})"

/-- Runs a strategy over a market and reports on it, at the time `now`. -/
def backtest (read : Reader) (now : String) (market strategy : String)
    (config output : Option String) (cost : Option Float) : Session Plan := do
  let loaded ← loadConfig read config
  let cost ← match cost with
    | none => pure loaded.backtest.transactionCost
    | some c =>
      match Config.checkCost c with
      | .ok c => pure c
      | .error e => throw (.configValue e)
  let definition ← loadDefinition read strategy
  let ticks ← loadMarket read market
  err s!"Running backtest: {definition.name}"
  match Strategy.run ticks definition { loaded.backtest with transactionCost := cost } with
  | .error e => throw (.run e)
  | .ok run =>
    let benchmark := (Backtest.buyAndHold ticks).toOption
    printSummary run benchmark
    let text := Report.render now loaded.maxTrades run benchmark
    let path := output.getD loaded.output
    if path = "-" then
      out text
      return .exit 0
    else return .write path text

/-- Checks a strategy. -/
def validate (read : Reader) (strategy : String) (json : Bool) : Session Plan := do
  err s!"Validating strategy: {strategy}"
  let spec ← loadSpec read strategy
  if json then out (Report.preflightJson spec).pretty
  else
    let s := spec.summary
    for d in spec.defects do
      err s!"  error: {d.message}"
    for w in spec.warnings do
      err s!"  warning: {w.message}"
    err s!"\n{s.name}"
    err s!"  {s.description}"
    let entries := s!"{s.numEntryRules} entry rule(s)"
    let exits := s!"{s.numExitRules} exit rule(s)"
    err s!"  {s.numFunctions} function(s), {entries}, {exits}"
    let needed := s.requirements.minDataPoints
    let largest := s.requirements.maxWindow
    err s!"  Needs at least {needed} data points (largest window {largest})"
    if spec.defects.isEmpty then err "\nStrategy definition is valid."
  return .exit (if spec.defects.isEmpty then 0 else 4)

/-- Names in a list, or that there are none. -/
def listed (names : List String) : String :=
  if names.isEmpty then "(none)" else Text.join ", " names

/-- Checks an expression. A fault in how it is written is shown at its place. -/
def checkExpr (expression : String) (explain : Bool) : Session Plan := do
  match Expression.accept expression with
  | .error r =>
    match Expression.parse expression with
    | .error e =>
      if e.fault = .tooComplex then err s!"error: {r.refusal.message}"
      else err s!"error: {e.context expression}"
    | .ok _ => err s!"error: {r.refusal.message}"
    match r.suggestion with
    | some s => err s!"suggestion: {s.message}"
    | none => pure ()
    return .exit 4
  | .ok _ =>
    out "Expression is valid."
    if explain then
      let r := Expression.requirements expression
      let vs := listed (r.usedVariables.map (·.name))
      let fs := listed (r.usedFunctions.map (·.name))
      out s!"  Variables: {vs}"
      out s!"  Functions: {fs}"
      out s!"  Largest window: {r.maxWindow}"
      out s!"  Minimum data points: {r.minDataPoints}"
    return .exit 0

/-- Lists the templates, or shows one as a strategy document. -/
def templates (id : Option String) : Session Plan := do
  match id with
  | none =>
    for t in Strategy.Template.all do
      let head := s!"{alignLeft 20 t.id} {alignLeft 16 t.category}"
      out s!"{head} {alignLeft 13 t.difficulty} {t.description}"
    return .exit 0
  | some id =>
    match Strategy.Template.find? id with
    | some t =>
      out t.strategy.toJson.pretty
      return .exit 0
    | none => throw (.strategyUnreadable id "no such template")

/-- A line of the table that compares strategies. -/
def tableLine (name total sharpe drawdown trades wins : String) : String :=
  let left := s!"{alignLeft 32 name} {alignRight 12 total} {alignRight 10 sharpe}"
  s!"{left} {alignRight 12 drawdown} {alignRight 8 trades} {alignRight 10 wins}"

/-- The line of a run. -/
def metricsLine (name : String) (m : Metrics Float) : String :=
  tableLine name (fixed 4 m.totalReturn) (fixed 4 m.sharpeRatio) (fixed 4 m.maxDrawdown)
    (toString m.numTrades) (fixed 2 m.winRate)

/-- Runs several strategies over a market beside the benchmark. -/
def compare (read : Reader) (market : String) (strategies : List String)
    (config : Option String) : Session Plan := do
  let loaded ← loadConfig read config
  let definitions ← strategies.mapM (loadDefinition read)
  let ticks ← loadMarket read market
  err s!"Running {definitions.length} strategies..."
  match Strategy.runAll ticks definitions loaded.backtest with
  | .error e => throw (.run (.fault (.capacityOverflow e)))
  | .ok runs =>
    match Backtest.buyAndHold ticks with
    | .error f => throw (.run (.fault f))
    | .ok benchmark =>
      out (tableLine "strategy" "return %" "sharpe" "max dd %" "trades" "win %")
      for (d, r) in definitions.zip runs do
        match r with
        | .ok run => out (metricsLine run.strategy run.result.metrics)
        | .error e => out s!"{alignLeft 32 d.name} error: {e.message}"
      out (metricsLine "buy and hold" benchmark.metrics)
      return .exit (if runs.any fun r => !r.isOk then 1 else 0)

/-- Does what a command asks for. -/
def Command.session (read : Reader) (now : String) : Command → Session Plan
  | .backtest market strategy config output cost =>
    CommandLine.backtest read now market strategy config output cost
  | .validate strategy json => CommandLine.validate read strategy json
  | .checkExpr expression explain => CommandLine.checkExpr expression explain
  | .templates id => CommandLine.templates id
  | .compare market strategies config => CommandLine.compare read market strategies config

/-! ## The end of a session -/

/-- What is printed and returned in the end. -/
structure Ending where
  console : Console
  status : Nat

/-- The end of a command that fails: it says why. -/
def Ending.failed (c : Console) (f : Failure) : Ending :=
  ⟨{ c with err := c.err ++ f.line ++ "\n" }, f.exitStatus⟩

/-- What a session comes to: what it printed, and what is left to do. -/
structure Outcome where
  console : Console
  plan : Plan

/-- The outcome of a command. -/
def Command.perform (c : Command) (read : Reader) (now : String) : Outcome :=
  match (c.session read now).run.run ⟨"", ""⟩ with
  | (.ok plan, console) => ⟨console, plan⟩
  | (.error f, console) => ⟨(Ending.failed console f).console, .exit f.exitStatus⟩

/-- Why a report could not be written. -/
def WriteFault.reason (path : String) : WriteFault → String
  | create directory f => s!"failed to create {directory}: {f.message}"
  | write f => s!"failed to write {path}: {f.message}"

/-- The ending once the report has been written, or could not be. -/
def Console.afterReport (c : Console) (path : String) : Except WriteFault Unit → Ending
  | .ok () => ⟨{ c with err := c.err ++ "Report written to " ++ path ++ "\n" }, 0⟩
  | .error e => .failed c (.report (e.reason path))

/-- Performs a command on a disk: the ending, and the disk afterwards. -/
def Command.onDisk (c : Command) (disk : Disk) (now : String) : Ending × Disk :=
  let o := c.perform disk.read now
  match o.plan with
  | .exit status => (⟨o.console, status⟩, disk)
  | .write path text =>
    let (written, disk) := disk.write path text
    (o.console.afterReport path written, disk)

end TickBacktest.CommandLine
