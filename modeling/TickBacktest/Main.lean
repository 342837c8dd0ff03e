import Std.Time.Format
import TickBacktest.CommandLine.Session

/-! # The program

Runs the command that the arguments ask for, on the files of the system. What a command needs is
read first; what it prints and writes is what its session says. -/

namespace TickBacktest.Main

open CommandLine (Command Reader SystemFault WriteFault)

/-- Why the system refuses. Of the two things that are no file, the one with the code 21 is a
directory; the other is a path that goes through a file. -/
def faultOf : IO.Error → SystemFault
  | .noFileOrDirectory .. => .notFound
  | .alreadyExists .. => .alreadyThere
  | .userError _ => .other "stream did not contain valid UTF-8"
  | .inappropriateType _ code _ => if code = 21 then .isDirectory else .notDirectory
  | .permissionDenied .. => .other "Permission denied (os error 13)"
  | .invalidArgument _ 36 _ => .nameTooLong
  | e => .other (toString e)

/-- The text of a file, or why it cannot be read. -/
def readFile (path : String) : IO (Except SystemFault String) := do
  try return .ok (← IO.FS.readFile path)
  catch e => return .error (faultOf e)

/-- The files at these paths, as they are now. -/
def readerOf (paths : List String) : IO Reader := do
  let texts ← paths.mapM fun path => return (path, ← readFile path)
  return fun path => (texts.lookup path).getD (.error .notFound)

/-- Makes one directory, in a directory that is there. -/
def makeDirectory (parts : List String) : IO (Except SystemFault Unit) := do
  let path := "/".intercalate parts
  try
    IO.FS.createDir path
    return .ok ()
  catch
    | .alreadyExists .. =>
      try
        IO.FS.createDirAll path
        return .ok ()
      catch e => return .error (faultOf e)
    | e => return .error (faultOf e)

/-- Writes a file, in a directory that is there. -/
def writeFile (path text : String) : IO (Except SystemFault Unit) := do
  try
    IO.FS.writeFile path text
    return .ok ()
  catch e => return .error (faultOf e)

/-- Writes a file and makes the directories above it. -/
def writeReport (path text : String) : IO (Except WriteFault Unit) := do
  let above := CommandLine.parentOf? path
  let parts := (above.map CommandLine.pathParts).getD []
  match ← CommandLine.makeDirectories makeDirectory parts.reverse with
  | .error f => return .error (.create (above.getD "") f)
  | .ok () => return (← writeFile path text).mapError .write

/-- The time, to the nanosecond, at the zero meridian. -/
def now : IO String := do
  let t ← Std.Time.Timestamp.now
  return (Std.Time.DateTime.ofTimestamp t .UTC).format "uuuu-MM-dd'T'HH:mm:ss.SSSSSSSSSxxx"

/-- Performs a command; the answer is the status to exit with. -/
def perform (c : Command) : IO UInt32 := do
  let o := c.perform (← readerOf c.inputs) (← now)
  let e ← match o.plan with
    | .exit status => pure ⟨o.console, status⟩
    | .write path text => do pure (o.console.afterReport path (← writeReport path text))
  (← IO.getStderr).putStr e.console.err
  (← IO.getStdout).putStr e.console.out
  return e.status.toUInt32

end TickBacktest.Main

def main (args : List String) : IO UInt32 := do
  match TickBacktest.CommandLine.Command.parse? args with
  | some c => TickBacktest.Main.perform c
  | none =>
    (← IO.getStderr).putStr TickBacktest.CommandLine.Command.usage
    return 2
