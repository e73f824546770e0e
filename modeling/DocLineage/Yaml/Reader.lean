import DocLineage.Yaml.Heap
import DocLineage.Yaml.Lending
import DocLineage.Yaml.Lexer
import DocLineage.Yaml.Node
import DocLineage.Yaml.Scalar

/-!
# Reading YAML

A document is turned into a value from the root outwards. A scalar is read at once; a collection is
begun when it is met and completed in its turn, so that of several faults the one that lies nearest
to the root counts, and of those the first. Every node is read once, wherever it is repeated.

## Main definitions

* `Yaml.Reading` — what has been read of a document
* `Yaml.Reading.read` — a node read, or begun
* `Yaml.Reading.complete` — a collection completed
* `Yaml.parse` — the value of a text
-/

namespace DocLineage.Yaml

namespace NodeType

/-- The type is that of collections. -/
def isCollection : NodeType → Bool
  | .list | .map | .set | .orderedMap | .pairs => true
  | _ => false

/-- The type has a meaning. -/
def isKnown : NodeType → Bool
  | .merge | .default | .unknown => false
  | _ => true

end NodeType

/-- The text of a node that is used as a scalar: its own, or for a mapping the one under the key for
defaults, and so on. -/
def Graph.textOf (g : Graph) : (steps : Nat) → NodeId → Except Fault Text
  | 0, _ => .error .endless
  | steps + 1, id =>
    match (g.node id).content with
    | .scalar text => .ok text
    | .list _ => .error .malformedYaml
    | .map entries =>
      match entries.find? fun e => g.typeOf e.1 == .default with
      | some e => g.textOf steps e.2
      | none => .error .malformedYaml

/-- What has been read of a document. -/
structure Reading where
  graph : Graph
  /-- No more than this number of entries borrow others. -/
  lenders : Nat
  /-- The nodes that have been read or begun. -/
  built : Array (Option Ref)
  heap : Heap
  /-- The collections that have been begun, the last one first. -/
  begun : List (NodeId × NodeType) := []

namespace Reading

/-- The state before anything has been read. The first collections have the numbers of their
nodes. -/
def start (g : Graph) : Reading where
  graph := g
  lenders := g.lenderCount
  built := Array.replicate g.size none
  heap := Array.replicate g.size (.list [])

/-- The number that is no number is spelled in one way for all nodes; read in any other way it
differs from node to node. -/
def ownNan (id : NodeId) (text : Text) : Scalar → Scalar
  | .float x => .float (if x.form == .nan && !isNanName text then Binary64.nanOf id else x)
  | s => s

/-- A node of a type that is not one of collections. -/
def readScalarNode (r : Reading) (id : NodeId) (type : NodeType) : Except Fault Scalar := do
  if !type.isKnown then throw .malformedYaml
  let text ← r.graph.textOf (r.graph.size + 1) id
  match type, (r.graph.node id).content with
  | .moment, .map _ => throw (.notText .list)
  | type, _ => return ownNan id text (← readScalar type text)

/-- The state after a node has been read or begun. -/
def settle (r : Reading) (id : NodeId) (ref : Ref) : Reading :=
  { r with built := r.built.setIfInBounds id (some ref) }

/-- A node read, or begun if it is a collection. -/
def read (r : Reading) (id : NodeId) : Except Fault (Ref × Reading) :=
  match r.built.getD id none with
  | some ref => .ok (ref, r)
  | none => do
    let type := r.graph.typeOf id
    if type.isCollection then
      return (.cell id, { r.settle id (.cell id) with begun := (id, type) :: r.begun })
    else
      let s ← r.readScalarNode id type
      return (.scalar s, r.settle id (.scalar s))

/-- Nodes read in order, the results of which are kept in reverse. -/
def readItems (r : Reading) (ids : List NodeId) : Except Fault (List Ref × Reading) := do
  let (refs, r) ← ids.foldlM (fun (refs, r) id => do
    let (ref, r) ← r.read id
    return (ref :: refs, r)) (([], r) : List Ref × Reading)
  return (refs.reverse, r)

/-- The entries of a mapping read in order. Only a scalar can be a key. -/
def readEntries (r : Reading) (es : NodeEntries) :
    Except Fault (List (Scalar × Ref) × Reading) := do
  let (entries, r) ← es.foldlM (fun (entries, r) (k, v) => do
    match ← r.read k with
    | (.cell _, _) => throw .malformedYaml
    | (.scalar key, r) =>
      let (value, r) ← r.read v
      return ((key, value) :: entries, r)) (([], r) : List (Scalar × Ref) × Reading)
  return (entries.reverse, r)

/-- An entry of a list of mappings with one entry each, read as a collection of its own. -/
def readPair (r : Reading) (id : NodeId) : Except Fault (Ref × Reading) := do
  match (r.graph.node id).content with
  | .map [(k, v)] =>
    let (first, r) ← r.read k
    let (second, r) ← r.read v
    return (.cell r.heap.size, { r with heap := r.heap.push (.pair first second) })
  | _ => throw .malformedYaml

/-- The state with a collection completed. -/
def setCell (r : Reading) (id : NodeId) (cell : Cell) : Reading :=
  { r with heap := r.heap.setIfInBounds id cell }

/-- The entries of a mapping with those that it borrows. -/
def mapEntries (r : Reading) (id : NodeId) : Except Fault (List (Scalar × Ref) × Reading) := do
  if !r.graph.isMap id then throw .malformedYaml
  let graph ← r.graph.flatten r.lenders id
  { r with graph }.readEntries (graph.entriesOf id)

/-- The items of a list. -/
def listItems (r : Reading) (id : NodeId) : Except Fault (List NodeId) :=
  match (r.graph.node id).content with
  | .list items => .ok items
  | _ => .error .malformedYaml

/-- The keys of some entries, each once, in the order of a set. -/
def setItems (entries : List (Scalar × Ref)) : List Scalar :=
  Slots.arrange (Mapping.ofEntries (entries.map fun e => (e.1, .null))).keys

/-- A collection completed as the type with which it was begun. -/
def complete (r : Reading) (e : NodeId × NodeType) : Except Fault Reading := do
  let (id, type) := e
  match type with
  | .map =>
    let (entries, r) ← r.mapEntries id
    return r.setCell id (.map entries)
  | .set =>
    let (entries, r) ← r.mapEntries id
    return r.setCell id (.set (setItems entries))
  | .orderedMap | .pairs =>
    let (refs, r) ← (← r.listItems id).foldlM (fun (refs, r) item => do
      let (ref, r) ← r.readPair item
      return (ref :: refs, r)) (([], r) : List Ref × Reading)
    return r.setCell id (.list refs.reverse)
  | _ =>
    let (refs, r) ← r.readItems (← r.listItems id)
    return r.setCell id (.list refs)

/-- All collections completed, in the order in which they are begun. As every node is begun once,
there are no more rounds than nodes. -/
def finish : (rounds : Nat) → Reading → Except Fault Reading
  | 0, r => .ok r
  | rounds + 1, r =>
    if r.begun.isEmpty then .ok r
    else do finish rounds (← r.begun.reverse.foldlM complete { r with begun := [] })

end Reading

/-- The value of a document. -/
def Document.toValue (d : Document) : Except Fault Value := do
  let (root, r) ← (Reading.start d.graph).read d.root
  let r ← r.finish (d.graph.size + 1)
  return r.heap.toValue d.graph.isRecursive root

/-- The value of a YAML text. -/
def parse (s : String) : Except Fault Value := do
  let (tokens, fault) := tokens s
  (← Document.ofTokens tokens fault).toValue

end DocLineage.Yaml
