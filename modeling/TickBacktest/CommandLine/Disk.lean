/-! # Files

Why a file cannot be read or written, and a disk in memory with directories and text files, on which
the program can be run and its effects be seen.

A path is read from left to right: whatever it goes through must be a directory that is there, `.`
stays, and `..` goes up. A path that ends in a slash names a directory. -/

namespace TickBacktest.CommandLine

/-- Why the system refuses to read or write. -/
inductive SystemFault where
  | notFound
  | alreadyThere
  | notDirectory
  | isDirectory
  | nameTooLong
  | nulInName
  | other (message : String)
  deriving DecidableEq, Repr

def SystemFault.message : SystemFault → String
  | notFound => "No such file or directory (os error 2)"
  | alreadyThere => "File exists (os error 17)"
  | notDirectory => "Not a directory (os error 20)"
  | isDirectory => "Is a directory (os error 21)"
  | nameTooLong => "File name too long (os error 36)"
  | nulInName => "file name contained an unexpected NUL byte"
  | other message => message

/-- Why a file cannot be written with the directories above it. -/
inductive WriteFault where
  | create (directory : String) (f : SystemFault)
  | write (f : SystemFault)
  deriving DecidableEq, Repr

/-! ## Paths -/

/-- The parts of a path between slashes, the empty ones left out. A path that starts with a slash
starts at the root, the part `/`. -/
def pathParts (path : String) : List String :=
  let parts := ((path.toList.splitOn '/').filter (· ≠ [])).map String.ofList
  if path.toList.head? = some '/' then "/" :: parts else parts

/-- Whether a path ends in a slash, and so can only name a directory. -/
def endsInSlash (path : String) : Bool :=
  path.toList.getLast? = some '/'

/-- Why a path is refused whatever is on the disk: it holds a NUL, is empty or is longer than 4095
bytes. -/
def pathFault? (path : String) : Option SystemFault :=
  if path.toList.contains '\x00' then some .nulInName
  else if path.isEmpty then some .notFound
  else if 4095 < path.utf8ByteSize then some .nameTooLong
  else none

/-- The characters of a path without the slashes and lone dots at its end. -/
def trimPath (reversed : List Char) : List Char :=
  match reversed with
  | '/' :: cs => trimPath cs
  | '.' :: '/' :: cs => trimPath cs
  | _ => reversed

/-- The directory of a path as it is written, if the path goes through one. -/
def parentOf? (path : String) : Option String :=
  let above := trimPath ((trimPath path.toList.reverse).dropWhile (· ≠ '/'))
  if above.isEmpty then none else some (String.ofList above.reverse)

/-- The extension of the file that a path names: what follows the last dot of its name, unless the
dot is the first character. -/
def extensionOf? (path : String) : Option String :=
  match ((pathParts path).filter (· ≠ ".")).getLast? with
  | some ".." | none => none
  | some name =>
    match name.toList.reverse.dropWhile (· ≠ '.') with
    | '.' :: stem =>
      if stem.isEmpty then none
      else some (String.ofList (name.toList.reverse.takeWhile (· ≠ '.')).reverse)
    | _ => none

/-! ## Places -/

/-- A place by the names on the way to it from the directory in which the program runs. Ahead of
them stand the `..` that lead out of that directory, or `/` if the way starts at the root. -/
abbrev Place := List String

namespace Place

/-- The place that a part of a path leads to. There is nothing above the root. -/
def enter (place : Place) (part : String) : Place :=
  if part = "." then place
  else if part = "/" then ["/"]
  else if part = ".." then
    match place.getLast? with
    | none | some ".." => place ++ [".."]
    | some "/" => place
    | some _ => place.dropLast
  else place ++ [part]

/-- Whether a place is there on every disk: the root, the directory in which the program runs, and
those above it. -/
def isStanding (place : Place) : Bool :=
  place = ["/"] || place.all (· = "..")

/-- Whether a place is outside the directory in which the program runs. -/
def isOutside (place : Place) : Bool :=
  place.head? = some "/" || place.head? = some ".."

end Place

/-! ## Making directories -/

/-- Makes the directory at the end of `reversed`, the parts of its path from the last to the first.
If there is none to make it in, that one is made first, in the same way. `make` makes one directory
in a directory; that it is there already is no fault. -/
def makeDirectories {m : Type → Type} [Monad m]
    (make : List String → m (Except SystemFault Unit)) :
    (reversed : List String) → m (Except SystemFault Unit)
  | [] => pure (.ok ())
  | name :: above => do
    match ← make (name :: above).reverse with
    | .error .notFound =>
      match ← makeDirectories make above with
      | .ok () => make (name :: above).reverse
      | .error f => pure (.error f)
    | made => pure made

/-! ## A disk in memory -/

/-- What stands at a place. -/
inductive Entry where
  | file (text : String)
  | directory
  deriving DecidableEq, Repr

/-- The entries of a disk by their places; the directories that are on every disk are not among
them. -/
abbrev Disk := List (Place × Entry)

namespace Disk

/-- The entry at a place. -/
def entry? (d : Disk) (place : Place) : Option Entry :=
  if place.isStanding then some .directory else (d.find? (·.1 = place)).map (·.2)

/-- Puts an entry at a place. -/
def put (d : Disk) (place : Place) (e : Entry) : Disk :=
  d.filter (·.1 ≠ place) ++ [(place, e)]

/-- A disk with the files and directories given; a path that ends in a slash is a directory. The
directories above each of them are there too. -/
def ofFiles (files : List (String × String)) : Disk :=
  files.foldl
    (fun d (path, text) =>
      let place := (pathParts path).foldl Place.enter []
      let above := (List.range place.length).map place.take
      let d := above.foldl (fun d p => if (d.entry? p).isSome then d else d.put p .directory) d
      d.put place (if endsInSlash path then .directory else .file text))
    []

/-- Goes down `parts` from the directory `place`; every part but the last must be a directory, and
no part has more than 255 bytes. The answer is the place arrived at, which need not be there. -/
def walk (d : Disk) (place : Place) : List String → Except SystemFault Place
  | [] => .ok place
  | part :: parts =>
    match d.entry? place with
    | none => .error .notFound
    | some (.file _) => .error .notDirectory
    | some .directory =>
      if 255 < part.utf8ByteSize then .error .nameTooLong else d.walk (place.enter part) parts

/-- The place that a path leads to. -/
def resolve (d : Disk) (path : String) : Except SystemFault Place :=
  match pathFault? path with
  | some f => .error f
  | none => d.walk [] (pathParts path)

/-- The text of a file. -/
def read (d : Disk) (path : String) : Except SystemFault String := do
  match d.entry? (← d.resolve path) with
  | some (.file text) => if endsInSlash path then .error .notDirectory else .ok text
  | some .directory => .error .isDirectory
  | none => .error .notFound

/-- Makes one directory, in a directory that is there. -/
def makeDirectory (d : Disk) (parts : List String) : Except SystemFault Unit × Disk :=
  match d.walk [] parts with
  | .error f => (.error f, d)
  | .ok place =>
    match d.entry? place with
    | some .directory => (.ok (), d)
    | some (.file _) => (.error .alreadyThere, d)
    | none => (.ok (), d.put place .directory)

/-- Makes the directory that a path goes through, and those above it. -/
def makeParent (d : Disk) (path : String) : Except WriteFault Unit × Disk :=
  match parentOf? path with
  | none => (.ok (), d)
  | some above =>
    match pathFault? above with
    | some f => (.error (.create above f), d)
    | none =>
      let make (parts : List String) : StateM Disk (Except SystemFault Unit) :=
        fun d => d.makeDirectory parts
      let (made, d) := makeDirectories make (pathParts above).reverse d
      (made.mapError (WriteFault.create above), d)

/-- Writes a file, replacing the one that is there, in a directory that is there. A path that ends
in a slash is refused as a directory, whatever it leads to. -/
def writeFile (d : Disk) (path text : String) : Except SystemFault Unit × Disk :=
  match d.resolve path with
  | .error f => (.error f, d)
  | .ok place =>
    if endsInSlash path then (.error .isDirectory, d)
    else
      match d.entry? place with
      | some .directory => (.error .isDirectory, d)
      | _ => (.ok (), d.put place (.file text))

/-- Writes a file and makes the directories above it. -/
def write (d : Disk) (path text : String) : Except WriteFault Unit × Disk :=
  match d.makeParent path with
  | (.error f, d) => (.error f, d)
  | (.ok (), d) =>
    let (written, d) := d.writeFile path text
    (written.mapError WriteFault.write, d)

end Disk

end TickBacktest.CommandLine
