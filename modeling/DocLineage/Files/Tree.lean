import DocLineage.Fault
import DocLineage.Files.Path
import DocLineage.Table

/-!
# File trees

The files that a command sees and leaves, as a value. Paths are followed segment by segment, so that
a double dot needs the directory before it to exist.

## Main definitions

* `FileTree` — files and directories
* `FileTree.at?`, `FileTree.put` — what stands at a place, and a tree with something put there
* `FileTree.places` — all places below the top of a tree
* `Storage` — a tree with a working directory
* `Storage.locate` — the place that a path leads to
* `Storage.read`, `Storage.write`, `Storage.makeDirectories` — the operations on files

## Main results

* `FileTree.at?_put` — what has been put at a place stands there
-/

namespace DocLineage

/-- Files and directories; the names in a directory are distinct. -/
inductive FileTree where
  | file (data : ByteArray)
  | directory (entries : List (Text × FileTree))

namespace FileTree

/-- A directory without entries. -/
def emptyDirectory : FileTree := .directory []

instance : Inhabited FileTree := ⟨emptyDirectory⟩

/-- The tree is a directory. -/
def isDirectory : FileTree → Bool
  | directory _ => true
  | file _ => false

/-- The tree is a file. -/
def isFile : FileTree → Bool
  | file _ => true
  | directory _ => false

/-- What stands at a place. -/
def at? (t : FileTree) : (place : List Text) → Option FileTree
  | [] => some t
  | name :: place =>
    match t with
    | directory entries => (Table.lookup name entries).bind (at? · place)
    | file _ => none

/-- The tree with another tree put at a place. Directories on the way are made. -/
def put (t : FileTree) (place : List Text) (new : FileTree) : FileTree :=
  match place with
  | [] => new
  | name :: place =>
    let entries := match t with
      | directory entries => entries
      | file _ => []
    let old := (Table.lookup name entries).getD emptyDirectory
    .directory (Table.set name (old.put place new) entries)

@[simp] theorem at?_nil (t : FileTree) : t.at? [] = some t := by
  cases t <;> rfl

/-- What has been put at a place stands there. -/
@[simp] theorem at?_put (t : FileTree) (place : List Text) (new : FileTree) :
    (t.put place new).at? place = some new := by
  induction place generalizing t with
  | nil => simp [put]
  | cons name place ih => simp [put, at?, Table.lookup_set, ih]

mutual

/-- All places below the top of a tree, a directory before its entries. -/
def places : FileTree → List (List Text)
  | file _ => []
  | directory entries => entryPlaces entries
termination_by structural t => t

/-- All places of the entries of a directory and below them. -/
def entryPlaces : List (Text × FileTree) → List (List Text)
  | [] => []
  | (name, t) :: es => [name] :: t.places.map (name :: ·) ++ entryPlaces es
termination_by structural es => es

end

end FileTree

/-- A tree with the place of the working directory. -/
structure Storage where
  root : FileTree := .emptyDirectory
  home : List Text := []

namespace Storage

/-- The place from which a path is followed. -/
def start (s : Storage) (p : Path) : List Text := if p.isAbsolute then [] else s.home

/-- The place that is reached from another one by following segments. Above the root is the root. -/
def follow (s : Storage) (place : List Text) : List Text → Except FileFault (List Text)
  | [] => .ok place
  | segment :: segments =>
    match s.root.at? place with
    | none => .error .missing
    | some (.file _) => .error .notDirectory
    | some (.directory entries) =>
      if segment == ".." then s.follow place.dropLast segments
      else if Path.isLongSegment segment then .error .nameTooLong
      else if (Table.lookup segment entries).isSome then s.follow (place ++ [segment]) segments
      else .error .missing

/-- The place that a path leads to. -/
def locate (s : Storage) (p : Path) : Except FileFault (List Text) :=
  if p.isLong then .error .nameTooLong else s.follow (s.start p) p.segments

/-- What a path leads to, if it leads anywhere. A path that the file system cannot be asked for
leads nowhere; only one that is too long cannot be answered. -/
def find? (s : Storage) (p : Path) : Except Fault (Option FileTree) :=
  match p.checkedText with
  | .error _ => .ok none
  | .ok text =>
    match s.locate p with
    | .ok place => .ok (s.root.at? place)
    | .error .nameTooLong => .error (.file .nameTooLong text)
    | .error _ => .ok none

/-- The path leads somewhere. -/
def has (s : Storage) (p : Path) : Except Fault Bool := return (← s.find? p).isSome

/-- The path leads to a directory. -/
def isDirectory (s : Storage) (p : Path) : Except Fault Bool :=
  return (← s.find? p).any FileTree.isDirectory

/-- The path leads to a file. -/
def isFile (s : Storage) (p : Path) : Except Fault Bool := return (← s.find? p).any FileTree.isFile

/-- The paths of everything below the directory that a path leads to. -/
def below (s : Storage) (p : Path) : Except Fault (List Path) := do
  match ← s.find? p with
  | some t => return t.places.map p.below
  | none => return []

/-- The outcome of an operation on the file that a path names, as far as the file system can be
asked for it. -/
def onPath {α : Type} (p : Path) (outcome : Except FileFault α) : Except Fault α := do
  let text ← p.checkedText
  outcome.mapError (.file · text)

/-- The data of the file at the end of a path. -/
def dataAt (s : Storage) (p : Path) : Except FileFault ByteArray := do
  match s.root.at? (← s.locate p) with
  | some (.file data) => return data
  | some (.directory _) => throw .isDirectory
  | none => throw .missing

/-- The data of the file that a path leads to. -/
def read (s : Storage) (p : Path) : Except Fault ByteArray := onPath p (s.dataAt p)

/-- The directory that holds the last segment of a path, and that segment. There is none for a path
that ends in a double dot or has no segment, since it cannot name a new entry. -/
def target (s : Storage) (p : Path) : Except FileFault (Option (List Text × Text)) := do
  if p.isLong then throw .nameTooLong
  match p.segments.getLast? with
  | none => return none
  | some last =>
    let place ← s.locate p.parent
    match s.root.at? place with
    | some (.directory _) =>
      if last == ".." then return none
      else if Path.isLongSegment last then throw .nameTooLong
      else return some (place, last)
    | some (.file _) => throw .notDirectory
    | none => throw .missing

/-- The storage with data written to the end of a path. -/
def withData (s : Storage) (p : Path) (data : ByteArray) : Except FileFault Storage := do
  match ← s.target p with
  | none => throw .isDirectory
  | some (place, name) =>
    match s.root.at? (place ++ [name]) with
    | some (.directory _) => throw .isDirectory
    | _ => return { s with root := s.root.put (place ++ [name]) (.file data) }

/-- The storage after data have been written to the file that a path names, which need not exist;
its directory has to. -/
def write (s : Storage) (p : Path) (data : ByteArray) : Except Fault Storage :=
  onPath p (s.withData p data)

/-- The storage after a directory has been made. -/
def makeDirectory (s : Storage) (p : Path) : Except FileFault Storage := do
  match ← s.target p with
  | none => throw .taken
  | some (place, name) =>
    if (s.root.at? (place ++ [name])).isSome then throw .taken
    else return { s with root := s.root.put (place ++ [name]) .emptyDirectory }

/-- The storage after a directory has been made unless it was there. -/
def ensureDirectory (s : Storage) (p : Path) : Except FileFault Storage :=
  match s.makeDirectory p with
  | .ok s => .ok s
  | .error fault =>
    match s.locate p with
    | .ok place => if (s.root.at? place).any FileTree.isDirectory then .ok s else .error fault
    | .error _ => .error fault

/-- The storage after a directory, with those above it, has been made where it was missing, for a
path whose segments are given in reverse. -/
def ensureAll (s : Storage) (lead : Text) : (reversed : List Text) → Except Fault Storage
  | [] =>
    let p : Path := ⟨lead, []⟩
    onPath p (s.ensureDirectory p)
  | name :: above =>
    let p : Path := ⟨lead, (name :: above).reverse⟩
    match onPath p (s.ensureDirectory p) with
    | .error (.file .missing _) => do
      let s ← s.ensureAll lead above
      onPath p (s.ensureDirectory p)
    | outcome => outcome

/-- The storage after a directory, with those above it, has been made where it was missing. -/
def makeDirectories (s : Storage) (p : Path) : Except Fault Storage :=
  s.ensureAll p.lead p.segments.reverse

/-- The storage after a text has been written to a file. -/
def writeText (s : Storage) (p : Path) (text : String) : Except Fault Storage :=
  s.write p text.toUTF8

end Storage

end DocLineage
