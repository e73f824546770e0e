import DocLineage.Yaml.NodeType

/-!
# YAML nodes

A document describes nodes: scalars and collections, each with a type. A node may be repeated by a
name, even inside of itself; so nodes are numbered in the order in which they start, and collections
hold the numbers of their parts.

## Main definitions

* `Yaml.Content`, `Yaml.Node` — a scalar or a collection, with its type
* `Yaml.Graph` — the nodes of a document
-/

namespace DocLineage.Yaml

/-- The number of a node. -/
abbrev NodeId := Nat

/-- The entries of a mapping: keys and values. -/
abbrev NodeEntries := List (NodeId × NodeId)

/-- What a node holds. -/
inductive Content where
  | scalar (text : Text)
  | list (items : List NodeId)
  | map (entries : NodeEntries)
deriving Repr

/-- A scalar or a collection with its type. -/
structure Node where
  type : NodeType
  content : Content
deriving Repr

instance : Inhabited Node := ⟨⟨.null, .scalar []⟩⟩

/-- The nodes of a document. -/
structure Graph where
  nodes : Array Node := #[]
  /-- Some node is repeated inside of itself. -/
  isRecursive : Bool := false

namespace Graph

/-- The node of a number. -/
def node (g : Graph) (id : NodeId) : Node := g.nodes.getD id default

/-- The number of the next node. -/
def size (g : Graph) : Nat := g.nodes.size

/-- The graph with a further node. -/
def add (g : Graph) (n : Node) : Graph := { g with nodes := g.nodes.push n }

/-- The graph with another content of a node. -/
def setContent (g : Graph) (id : NodeId) (content : Content) : Graph :=
  { g with nodes := g.nodes.modify id fun n => { n with content } }

/-- The graph with another type of a node. -/
def setType (g : Graph) (id : NodeId) (type : NodeType) : Graph :=
  { g with nodes := g.nodes.modify id fun n => { n with type } }

/-- The type of a node. -/
def typeOf (g : Graph) (id : NodeId) : NodeType := (g.node id).type

/-- The entries of a mapping; another node has none. -/
def entriesOf (g : Graph) (id : NodeId) : NodeEntries :=
  match (g.node id).content with
  | .map entries => entries
  | _ => []

/-- The node is a mapping. -/
def isMap (g : Graph) (id : NodeId) : Bool :=
  match (g.node id).content with
  | .map _ => true
  | _ => false

@[simp] theorem size_add (g : Graph) (n : Node) : (g.add n).size = g.size + 1 := by
  simp [size, add]

@[simp] theorem size_setContent (g : Graph) (id : NodeId) (content : Content) :
    (g.setContent id content).size = g.size := by
  simp [size, setContent]

@[simp] theorem size_setType (g : Graph) (id : NodeId) (type : NodeType) :
    (g.setType id type).size = g.size := by
  simp [size, setType]

end Graph

end DocLineage.Yaml
