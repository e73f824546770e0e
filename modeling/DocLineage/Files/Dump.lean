import DocLineage.Config.Basic
import DocLineage.Doclet.OfMapping
import DocLineage.Files.Tree
import DocLineage.Json.Reader
import DocLineage.Text.Encoding
import DocLineage.Yaml.Reader

/-!
# Reading dumps and configurations from files

## Main definitions

* `Storage.readText` — the text of a file
* `Dump.collect` — the dumps that some files and directories stand for
* `Dump.load` — the doclets of a dump
* `Config.load` — the configuration of a file over the defaults
-/

namespace DocLineage

/-- The text of the file that a path leads to. -/
def Storage.readText (s : Storage) (p : Path) : Except Fault String := do
  match Text.decode? (← s.read p) with
  | some text => return text
  | none => throw .malformedEncoding

namespace Dump

/-- The endings of names of dumps. -/
def suffixes : List Text := [".json", ".yml", ".yaml"]

/-- The path looks like that of a dump. -/
def isNamed (p : Path) : Bool := suffixes.contains p.suffix

/-- The dumps that an input stands for: for a directory what looks like a dump anywhere below it, in
the order of paths, and else the file itself, whatever its name. -/
def matching (s : Storage) (input : Path) : Except Fault (List Path) := do
  if ← s.isDirectory input then
    return ((← s.below input).filter isNamed).mergeSort fun p q => !q.lt p
  else if ← s.isFile input then return [input]
  else return []

/-- The dumps that some inputs stand for. -/
def collect (s : Storage) (inputs : List Path) : Except Fault (List Path) := do
  return (← inputs.mapM (matching s)).flatten

@[simp] theorem collect_nil (s : Storage) : collect s [] = .ok [] := rfl

/-- The value of the text of a dump, the format of which follows from the name. -/
def parse (p : Path) (text : String) : Except Fault Value :=
  if p.suffix == ".json" then Json.parse text else Yaml.parse text

/-- The doclet mappings of a dump. -/
def loadMappings (s : Storage) (p : Path) : Except Fault (List Mapping) := do
  doclets (← parse p (← s.readText p))

/-- The doclets of a dump in source order, with what is of note up to the end or the first fault. -/
def load (s : Storage) (p : Path) : Except Fault (List Doclet) × List Notice :=
  match loadMappings s p with
  | .ok mappings => read mappings
  | .error fault => (.error fault, [])

/-- The doclets of some dumps one after the other, with what is of note up to the end or the first
fault. -/
def loadAll (s : Storage) : List Path → Except Fault (List Doclet) × List Notice
  | [] => (.ok [], [])
  | p :: ps =>
    match load s p with
    | (.error fault, notices) => (.error fault, notices)
    | (.ok doclets, notices) =>
      let rest := loadAll s ps
      (rest.1.map (doclets ++ ·), notices ++ rest.2)

end Dump

/-- The configuration of a file laid over the defaults. No file, an empty name and a missing file
leave the defaults; so does a file with nothing set in it. -/
def Config.load (s : Storage) (file : Option Text) : Except Fault Config := do
  let name := file.getD []
  let p := Path.ofText name
  if name.isEmpty then return defaults
  if !(← s.has p) then return defaults
  let user ← Yaml.parse (← s.readText p)
  layer defaults (if user.isTruthy then user else .map [])

end DocLineage
