import DocLineage.CommandLine.Resolve
import Std.Time.DateTime.Timestamp

/-!
# The program

Resolves dumps as its command line asks. The files that the command may see are read into a value
first, and the files that it has changed are written back at the end. The entries of directories are
not searched for: if a word of the command line names a directory, the paths below it are read from
the standard input, one a line.
-/

namespace DocLineage.Program

open CommandLine

/-- The paths above a path, and the path itself. -/
def withAncestors (p : Path) : List Path :=
  (List.range (p.segments.length + 1)).map fun n => { p with segments := p.segments.take n }

/-- A text for the operating system; half of a surrogate pair becomes a question mark. -/
def plainText (t : Text) : String :=
  String.ofList (t.map fun s => match s with
    | .char c => c
    | .half _ => '?')

/-- The name of a place for the operating system. -/
def placeName (place : List Text) : String := plainText ("/" ++ Text.join "/" place)

/-- What stands at a place now, if it can be read. -/
def treeAt? (place : List Text) : IO (Option FileTree) := do
  try
    return some (.file (← IO.FS.readBinFile (placeName place)))
  catch
    | .inappropriateType .. => return some .emptyDirectory
    | _ => return none

/-- The storage with what stands at a path, unless the path is known or leads nowhere. -/
def addPath (s : Storage) (p : Path) : IO Storage := do
  match s.has p, s.target p with
  | .ok false, .ok (some (above, name)) =>
    let place := above ++ [name]
    match ← treeAt? place with
    | some t => return { s with root := s.root.put place t }
    | none => return s
  | _, _ => return s

/-- The storage with what stands at some paths and above them. -/
def addPaths (s : Storage) (paths : List Path) : IO Storage :=
  (paths.flatMap withAncestors).foldlM addPath s

/-- The storage of the working directory before anything has been read. -/
def emptyStorage : IO Storage := do
  let home := (Path.ofText (toString (← IO.currentDir))).segments
  return { root := FileTree.emptyDirectory.put home .emptyDirectory, home }

/-- The lines of the standard input. -/
partial def inputLines (input : IO.FS.Stream) : IO (List String) := do
  let line ← input.getLine
  if line.isEmpty then return []
  return line.trimAsciiEnd.toString :: (← inputLines input)

/-- The files that a command line speaks of. -/
def readStorage (words : List String) : IO Storage := do
  let named := words.flatMap fun w => (w.splitOn "=").map fun (part : String) => Path.ofText part
  let s ← addPaths (← emptyStorage) named
  if named.any fun p => (s.isDirectory p).toOption == some true then
    addPaths s ((← inputLines (← IO.getStdin)).map fun (line : String) => Path.ofText line)
  else return s

/-- Writes the files that differ, and makes the directories that are new. -/
def writeChanges (before after : Storage) : IO Unit := do
  for place in after.root.places do
    match after.root.at? place, before.root.at? place with
    | some (.directory _), none => IO.FS.createDirAll (placeName place)
    | some (.file data), some (.file old) =>
      if data != old then IO.FS.writeBinFile (placeName place) data
    | some (.file data), _ => IO.FS.writeBinFile (placeName place) data
    | _, _ => pure ()

/-- Nanoseconds as seconds. -/
def seconds (nanoseconds : Nat) : Binary64 := Binary64.ofRatio nanoseconds (Nat.pow 10 9)

/-- Tells how a command ended, and returns the status of the program. -/
def report (ending : Ending) : IO UInt32 := do
  match ending with
  | .finished | .explained => return 0
  | .left status => return UInt32.ofNat status.toNat
  | .refused message => IO.eprintln (plainText message); return 1
  | .misused m =>
    IO.eprint resolveUsage
    IO.eprintln (resolveName ++ ": error: " ++ plainText m.message)
    return 2
  | .failed fault =>
    IO.eprintln (fault.message?.getD "malformed input")
    return 1

end DocLineage.Program

open DocLineage DocLineage.Program DocLineage.CommandLine in
/-- Runs the resolver on the words of the command line. -/
def main (words : List String) : IO UInt32 := do
  let before ← readStorage words
  let now ← Std.Time.Timestamp.now
  let clock : Report.Clock := ⟨seconds now.toNanosecondsSinceUnixEpoch.val.toNat, seconds 0⟩
  let (after, ending) := (resolveCommand clock (words.map Text.ofString)).runIn { storage := before }
  writeChanges before after.storage
  IO.print (plainText after.output)
  for notice in after.shown do IO.eprintln (plainText notice.line)
  report ending
