import DocLineage.Fault
import DocLineage.Text.Lower

/-!
# Paths

A path is kept without what has no meaning: empty segments and single dots are dropped, double dots
stay. Paths are ordered by their segments.

## Main definitions

* `Path`, `Path.ofText`, `Path.toText` — paths and their texts
* `Path.parent`, `Path.child`, `Path.suffix` — parts of paths
* `Path.lt` — the order of paths
* `Path.checkedText` — the text of a path that the file system can be asked for
-/

namespace DocLineage

/-- A path by its segments, after the slashes that an absolute path starts with. -/
structure Path where
  lead : Text := []
  segments : List Text := []
deriving DecidableEq, Repr, Inhabited

namespace Path

/-- The mark between segments. -/
def slash : Symbol := .char '/'

/-- The slashes that count at the start of a text: two are kept, more are one. -/
def leadOf (t : Text) : Text :=
  match (t.takeWhile (· == slash)).length with
  | 0 => []
  | 2 => [slash, slash]
  | _ => [slash]

/-- The segments that mean something. -/
def isMeaningful (segment : Text) : Bool := !segment.isEmpty && segment != "."

/-- The path of a text. -/
def ofText (t : Text) : Path := ⟨leadOf t, (Text.split slash t).filter isMeaningful⟩

/-- The text of a path; the empty path is written as a dot. -/
def toText (p : Path) : Text :=
  let t := p.lead ++ Text.join [slash] p.segments
  if t.isEmpty then "." else t

/-- The path starts at the root. -/
def isAbsolute (p : Path) : Bool := !p.lead.isEmpty

/-- The path without its last segment. -/
def parent (p : Path) : Path := { p with segments := p.segments.dropLast }

/-- A path below another one. -/
def below (p : Path) (segments : List Text) : Path :=
  { p with segments := p.segments ++ segments }

/-- The path of an entry of a directory. -/
def child (p : Path) (name : Text) : Path := p.below [name]

@[simp] theorem below_nil (p : Path) : p.below [] = p := by simp [below]

/-- Every entry of a directory has that directory as its parent. -/
@[simp] theorem parent_child (p : Path) (name : Text) : (p.child name).parent = p := by
  simp [parent, child, below]

/-- The last segment, empty if there is none. -/
def name (p : Path) : Text := (p.segments.getLast?).getD []

/-- The ending of a name from its last dot on, unless the name starts or ends with that dot. -/
def suffixOf (name : Text) : Text :=
  let reversed := name.reverse
  let ending := reversed.takeWhile (· != .char '.')
  match reversed.drop ending.length with
  | [] | [_] => []
  | _ => if ending.isEmpty then [] else .char '.' :: ending.reverse

/-- The ending of the last segment in lower case. -/
def suffix (p : Path) : Text := Text.lower (suffixOf p.name)

/-- Paths are ordered by what they start with and then by their segments, in the order of code
points. -/
def lt (p q : Path) : Bool := decide (p.lead :: p.segments < q.lead :: q.segments)

/-! ### Names in the file system -/

/-- A half of a surrogate pair that stands for a byte that is no part of a character. -/
def isByteHalf (s : Symbol) : Bool := 0xDC80 ≤ s.code && s.code ≤ 0xDCFF

/-- Half of a surrogate pair. -/
def isHalf (s : Symbol) : Bool := 0xD800 ≤ s.code && s.code < 0xE000

/-- The halves of surrogate pairs that no name can hold, if there are any: where the first one
stands, and how many halves follow without a gap. -/
def unencodable? (t : Text) : Option (Nat × Nat) :=
  let fits (s : Symbol) : Bool := !isHalf s || isByteHalf s
  match t.dropWhile fits with
  | [] => none
  | rest => some (t.length - rest.length, (rest.takeWhile isHalf).length)

/-- The number of bytes that a text takes up as a name. -/
def nameSize (t : Text) : Nat :=
  t.foldl (fun size s => match s with
    | .char c => size + c.utf8Size
    | .half _ => size + 1) 0

/-- The greatest number of bytes of a segment that is looked up in a directory. -/
def maxSegmentSize : Nat := 255

/-- No path of this many bytes is followed. -/
def tooLongSize : Nat := 4096

/-- A segment is too long to be looked up. -/
def isLongSegment (segment : Text) : Bool := maxSegmentSize < nameSize segment

/-- The path is too long to be followed. -/
def isLong (p : Path) : Bool := tooLongSize ≤ nameSize p.toText

/-- The text of the path, which has to be one that the file system can be asked for. -/
def checkedText (p : Path) : Except Fault Text :=
  let t := p.toText
  match unencodable? t with
  | some (start, count) => .error (.unencodable t start count)
  | none => if t.contains (.char '\x00') then .error .nullInPath else .ok t

end Path

end DocLineage
