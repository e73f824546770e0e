import DocLineage.Value.SlotOrder
import DocLineage.Yaml.Graph

/-!
# Collections under construction

While a document is turned into a value its collections refer to each other by number, so that a
collection may be part of itself. In the end the value is unfolded from the outermost one; where a
collection comes back inside of itself there is a knot.

## Main definitions

* `Yaml.Ref`, `Yaml.Cell`, `Yaml.Heap` — parts, collections, and all collections
* `Yaml.Heap.isCyclic` — a collection is part of itself
* `Yaml.Heap.unfold` — the value of a part
-/

namespace DocLineage.Yaml

/-- A part of a collection: a scalar, or the number of a collection. -/
inductive Ref where
  | scalar (s : Scalar)
  | cell (id : Nat)
deriving Repr

instance : Inhabited Ref := ⟨.scalar .null⟩

/-- A collection with its parts. The entries of a mapping stand as they were written; of a repeated
key the first place and the last value count. -/
inductive Cell where
  | list (items : List Ref)
  | pair (first second : Ref)
  | set (items : List Scalar)
  | map (entries : List (Scalar × Ref))
deriving Repr

/-- Collections by their numbers. -/
abbrev Heap := Array Cell

namespace Cell

/-- The parts of a collection. -/
def parts : Cell → List Ref
  | list items => items
  | pair first second => [first, second]
  | set _ => []
  | map entries => entries.map Prod.snd

/-- The kind of a collection. -/
def kind : Cell → Value.Kind
  | list _ => .list
  | pair .. => .pair
  | set _ => .set
  | map _ => .map

end Cell

namespace Heap

/-- The collection of a number. -/
def cell (h : Heap) (id : Nat) : Cell := h.getD id (.list [])

/-- The numbers of the collections that are parts of a collection. -/
def inner (h : Heap) (id : Nat) : List Nat :=
  (h.cell id).parts.filterMap fun r => match r with
    | .cell id => some id
    | .scalar _ => none

/-- Whether a collection is among some others or their parts, and the parts of those, apart from
what has been seen. -/
def reaches (h : Heap) (target : Nat) : (steps : Nat) → (seen : List Nat) → List Nat → Bool
  | 0, _, _ => false
  | _, _, [] => false
  | steps + 1, seen, id :: ids =>
    if id == target then true
    else if seen.contains id then reaches h target steps seen ids
    else reaches h target steps (id :: seen) (h.inner id ++ ids)

/-- How many parts all collections have together. -/
def partCount (h : Heap) : Nat := h.foldl (fun n c => n + c.parts.length) 0

/-- The collection is part of itself. -/
def isCyclic (h : Heap) (id : Nat) : Bool :=
  h.reaches id (2 * h.partCount + 1) [] (h.inner id)

/-- The value of a part inside of the collections of some names; `knots` are the collections that
are part of themselves. No collection lies inside of itself but by its name, so that `depth` need
not exceed the number of collections. -/
def unfold (h : Heap) (knots : List Nat) : (depth : Nat) → (names : List Nat) → Ref → Value
  | _, _, .scalar s => .scalar s
  | 0, _, .cell _ => .null
  | depth + 1, names, .cell id =>
    let cell := h.cell id
    if names.contains id then .again id cell.kind
    else
      let tied := knots.contains id
      let part := unfold h knots depth (if tied then id :: names else names)
      let body : Value := match cell with
        | .list items => .list (items.map part)
        | .pair first second => .pair (part first) (part second)
        | .set items => .set items
        | .map entries => .map (Mapping.ofEntries (entries.map fun e => (e.1, part e.2)))
      if tied then .knot id body else body

/-- The value of a part. Only if some collection is part of itself are there any knots. -/
def toValue (h : Heap) (isRecursive : Bool) (r : Ref) : Value :=
  let knots := if isRecursive then (List.range h.size).filter h.isCyclic else []
  h.unfold knots (h.size + 1) [] r

end Heap

end DocLineage.Yaml
