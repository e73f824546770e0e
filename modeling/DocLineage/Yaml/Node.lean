import DocLineage.Fault
import DocLineage.Yaml.Graph
import DocLineage.Yaml.Token

/-!
# From tokens to nodes

The tokens of a stream describe the nodes of one document. They are read one at a time: a composer
keeps the places, from the innermost outwards, that wait for a node, each with what its collection
holds so far. Marks may be left out where the next token tells what is missing, so a composer first
supplies what the next token implies and then reads the token itself. A node can be repeated as soon
as it has started.

## Main definitions

* `Yaml.Slot` — a place that waits for a node
* `Yaml.Composer` — what has been read so far
* `Yaml.Composer.supply`, `Yaml.Composer.read` — what a token implies, and the token itself
* `Yaml.Document.ofTokens` — the document of a stream
-/

namespace DocLineage.Yaml

/-- What is written before a node: the name by which it is repeated, and its type. -/
structure Head where
  anchor : Option String := none
  typeName : Option TagName := none
deriving DecidableEq

/-- How the items of a list are marked. -/
inductive ListStyle where
  /-- By hyphens of their own column. -/
  | block
  /-- By hyphens of the column of the mapping around the list. -/
  | indentless
  /-- By commas between brackets. -/
  | flow
deriving DecidableEq

/-- How the entries of a mapping are marked. -/
inductive MapStyle where
  /-- By their column. -/
  | block
  /-- By commas between braces. -/
  | flow
  /-- A single entry that is an item of a list between brackets. -/
  | pair
deriving DecidableEq

/-- A place that waits for a node, with its collection and what that holds; items and entries are
kept in reverse. -/
inductive Slot where
  | document (explicit : Bool)
  | item (style : ListStyle) (list : NodeId) (items : List NodeId)
  | key (style : MapStyle) (map : NodeId) (entries : NodeEntries)
  /-- A key without a mark, which has no value. -/
  | loneKey (map : NodeId) (entries : NodeEntries)
  | value (style : MapStyle) (map : NodeId) (entries : NodeEntries) (key : NodeId)

/-- What may come next. -/
inductive Stage where
  /-- Nothing has been read. -/
  | start
  /-- Directives have been read, perhaps one on the version. -/
  | prologue (version : Bool)
  /-- A node, of which the head may have been read. -/
  | node (slot : Slot) (head : Head)
  /-- An item or the end of a list. A `fresh` list between brackets does not need a comma. -/
  | items (style : ListStyle) (list : NodeId) (items : List NodeId) (fresh : Bool)
  /-- An entry or the end of a mapping. -/
  | entries (style : MapStyle) (map : NodeId) (entries : NodeEntries) (fresh : Bool)
  /-- The value of a key. -/
  | keyed (style : MapStyle) (map : NodeId) (entries : NodeEntries) (key : NodeId)
  /-- The end of the stream. -/
  | finished (root : NodeId)
  /-- Directives after the end of the document, perhaps one on the version. -/
  | epilogue (root : NodeId) (version : Bool)

/-- What has been read of a stream. `slots` are the places outside of the innermost collection. -/
structure Composer where
  stage : Stage := .start
  slots : List Slot := []
  graph : Graph := {}
  anchors : List (String × NodeId) := []
  handles : List (String × String) := []

namespace Slot

/-- The collection that the place belongs to. -/
def owner? : Slot → Option NodeId
  | document _ => none
  | item _ id _ | key _ id _ | loneKey id _ | value _ id _ _ => some id

/-- Collections without brackets may stand at the place. -/
def isBlock : Slot → Bool
  | document _ => true
  | item style .. => style != .flow
  | key style .. | value style .. => style == .block
  | loneKey .. => false

/-- A list without a column of its own may stand at the place. -/
def allowsIndentless : Slot → Bool
  | key style .. | value style .. => style == .block
  | _ => false

/-- The token ends the place, which then holds an empty scalar. -/
def isEndedBy (slot : Slot) (t : Token) : Bool :=
  match slot with
  | document explicit =>
    explicit && match t with
      | .versionDirective _ | .tagDirective .. | .otherDirective => true
      | .documentStart | .documentEnd | .streamEnd => true
      | _ => false
  | item .block .. => [.blockEntry, .blockEnd].contains t
  | item .indentless .. => [.blockEntry, .key, .value, .blockEnd].contains t
  | key .block .. | value .block .. => [.key, .value, .blockEnd].contains t
  | key .pair .. => [.value, .flowEntry, .flowSequenceEnd].contains t
  | value .pair .. => [.flowEntry, .flowSequenceEnd].contains t
  | key .flow .. => [.value, .flowEntry, .flowMappingEnd].contains t
  | value .flow .. => [.flowEntry, .flowMappingEnd].contains t
  | item .flow .. | loneKey .. => false

end Slot

namespace Composer

/-! ### Nodes -/

/-- The handles that need no directive. -/
def usualHandles : List (String × String) := [("!", "!"), ("!!", NodeType.namePrefix)]

/-- The full name of a type. -/
def fullName (c : Composer) (name : TagName) : Except Fault String :=
  match name.handle with
  | none => .ok name.suffix
  | some handle =>
    match (c.handles ++ usualHandles).lookup handle with
    | some start => .ok (start ++ name.suffix)
    | none => .error .malformedYaml

/-- The name that leaves the type of a node open. -/
def openName : String := "!"

/-- The type of a collection, which is `usual` unless another one is declared. -/
def collectionType (c : Composer) (head : Head) (usual : NodeType) : Except Fault NodeType :=
  match head.typeName with
  | none => .ok usual
  | some name => do
    let name ← c.fullName name
    return if name == openName then usual else .ofName name

/-- The type of a scalar. -/
def scalarType (c : Composer) (head : Head) (text : Text) (plain : Bool) : Except Fault NodeType :=
  match head.typeName with
  | none => .ok (if plain then .ofPlain text else .text)
  | some name => do
    let name ← c.fullName name
    return if name == openName then .ofPlain text else .ofName name

/-- The composer with a further node, which may be repeated by the name of its head. A name may be
given once. -/
def add (c : Composer) (head : Head) (n : Node) : Except Fault (NodeId × Composer) :=
  let id := c.graph.size
  let c := { c with graph := c.graph.add n }
  match head.anchor with
  | none => .ok (id, c)
  | some name =>
    if (c.anchors.lookup name).isSome then .error .malformedYaml
    else .ok (id, { c with anchors := (name, id) :: c.anchors })

/-- The composer with an empty scalar. -/
def addEmpty (c : Composer) : NodeId × Composer :=
  (c.graph.size, { c with graph := c.graph.add default })

/-- The composer after a place has received a node. -/
def fill (c : Composer) (slot : Slot) (id : NodeId) : Composer :=
  match slot with
  | .document _ => { c with stage := .finished id }
  | .item style list items => { c with stage := .items style list (id :: items) false }
  | .key style map entries => { c with stage := .keyed style map entries id }
  | .loneKey map entries =>
    let (value, c) := c.addEmpty
    { c with stage := .entries .flow map ((id, value) :: entries) false }
  | .value style map entries key =>
    { c with stage := .entries style map ((key, id) :: entries) false }

/-- The composer after a place has received a scalar. -/
def fillScalar (c : Composer) (slot : Slot) (head : Head) (text : Text) (plain : Bool) :
    Except Fault Composer := do
  let (id, c) ← c.add head ⟨← c.scalarType head text plain, .scalar text⟩
  return c.fill slot id

/-- The composer inside a collection that starts at a place. -/
def enter (c : Composer) (slot : Slot) (head : Head) (usual : NodeType) (content : Content)
    (stage : NodeId → Stage) : Except Fault Composer := do
  let (id, c) ← c.add head ⟨← c.collectionType head usual, content⟩
  return { c with slots := slot :: c.slots, stage := stage id }

/-- The composer inside a list that starts at a place. -/
def enterList (c : Composer) (slot : Slot) (head : Head) (stage : NodeId → Stage) :
    Except Fault Composer :=
  c.enter slot head .list (.list []) stage

/-- The composer inside a mapping that starts at a place. -/
def enterMap (c : Composer) (slot : Slot) (head : Head) (stage : NodeId → Stage) :
    Except Fault Composer :=
  c.enter slot head .map (.map []) stage

/-- The composer after the innermost collection has been completed. -/
def close (c : Composer) (id : NodeId) (content : Content) : Except Fault Composer :=
  match c.slots with
  | [] => .error .malformedYaml
  | slot :: slots => .ok ({ c with slots, graph := c.graph.setContent id content }.fill slot id)

/-- The composer after a list has been completed. -/
def closeList (c : Composer) (list : NodeId) (items : List NodeId) : Except Fault Composer :=
  c.close list (.list items.reverse)

/-- The composer after a mapping has been completed. -/
def closeMap (c : Composer) (map : NodeId) (entries : NodeEntries) : Except Fault Composer :=
  c.close map (.map entries.reverse)

/-- The composer after a place has received a node that is repeated. -/
def repeatNode (c : Composer) (slot : Slot) (name : String) : Except Fault Composer :=
  match c.anchors.lookup name with
  | none => .error .malformedYaml
  | some id =>
    let isOpen := (slot :: c.slots).any fun s => s.owner? == some id
    let graph := { c.graph with isRecursive := c.graph.isRecursive || isOpen }
    .ok ({ c with graph }.fill slot id)

/-! ### What a token implies -/

/-- The token goes on with a node of which the head has been read. -/
def continuesNode (slot : Slot) (head : Head) : Token → Bool
  | .scalar .. | .flowSequenceStart | .flowMappingStart => true
  | .blockSequenceStart | .blockMappingStart => slot.isBlock
  | .blockEntry => slot.allowsIndentless
  | .anchor _ => head.anchor.isNone
  | .tag _ => head.typeName.isNone
  | _ => false

/-- An empty scalar at a place that the token ends. -/
def supplyNode (t : Token) (c : Composer) : Except Fault Composer :=
  match c.stage with
  | .node slot head =>
    if (if head == {} then slot.isEndedBy t else !continuesNode slot head t) then
      c.fillScalar slot head [] true
    else .ok c
  | _ => .ok c

/-- The end of a list without a column of its own, unless an item follows. -/
def supplyListEnd (t : Token) (c : Composer) : Except Fault Composer :=
  match c.stage with
  | .items .indentless list items _ => if t == .blockEntry then .ok c else c.closeList list items
  | _ => .ok c

/-- An empty value for a key that no value follows. -/
def supplyValue (t : Token) (c : Composer) : Except Fault Composer :=
  match c.stage with
  | .keyed style map entries key =>
    if t == .value then .ok c
    else
      let (id, c) := c.addEmpty
      .ok (c.fill (.value style map entries key) id)
  | _ => .ok c

/-- The end of a single entry between brackets. -/
def supplyPairEnd (c : Composer) : Except Fault Composer :=
  match c.stage with
  | .entries .pair map entries _ => c.closeMap map entries
  | _ => .ok c

/-- What is left out before a token. -/
def supply (c : Composer) (t : Token) : Except Fault Composer := do
  supplyPairEnd (← supplyValue t (← supplyListEnd t (← supplyNode t c)))

/-! ### Directives -/

/-- The composer after a directive, and whether one on the version has been read. Other directives
than the two known ones are passed over. -/
def readDirective (c : Composer) (version : Bool) : Token → Except Fault (Composer × Bool)
  | .versionDirective major =>
    if version || major != 1 then .error .malformedYaml else .ok (c, true)
  | .tagDirective handle start =>
    if (c.handles.lookup handle).isSome then .error .malformedYaml
    else .ok ({ c with handles := (handle, start) :: c.handles }, version)
  | .otherDirective => .ok (c, version)
  | _ => .error .malformedYaml

/-- A token before a document. -/
def readPrologue (c : Composer) (version : Bool) : Token → Except Fault Composer
  | .documentStart => .ok { c with stage := .node (.document true) {} }
  | t => do
    let (c, version) ← c.readDirective version t
    return { c with stage := .prologue version }

/-- A token after the document. A further document is refused, but only at its start. -/
def readEpilogue (c : Composer) (root : NodeId) (version : Bool) (t : Token) :
    Except Fault Composer := do
  let (c, version) ← c.readDirective version t
  return { c with stage := .epilogue root version }

/-! ### The token itself -/

/-- The composer after a part of a head; the type of a complete head has to be known. -/
def readHead (c : Composer) (slot : Slot) (head : Head) : Except Fault Composer :=
  match head.anchor, head.typeName with
  | some _, some name => do
    let _ ← c.fullName name
    return { c with stage := .node slot head }
  | _, _ => .ok { c with stage := .node slot head }

/-- A token that belongs to a node. -/
def readNode (c : Composer) (slot : Slot) (head : Head) (t : Token) : Except Fault Composer :=
  match t with
  | .alias name => c.repeatNode slot name
  | .anchor name => c.readHead slot { head with anchor := some name }
  | .tag name => c.readHead slot { head with typeName := some name }
  | .scalar text plain => c.fillScalar slot head text plain
  | .flowSequenceStart => c.enterList slot head (.items .flow · [] true)
  | .flowMappingStart => c.enterMap slot head (.entries .flow · [] true)
  | .blockSequenceStart =>
    if slot.isBlock then c.enterList slot head (.items .block · [] true) else .error .malformedYaml
  | .blockMappingStart =>
    if slot.isBlock then c.enterMap slot head (.entries .block · [] true) else .error .malformedYaml
  | .blockEntry =>
    if slot.allowsIndentless then
      c.enterList slot head fun id => .node (.item .indentless id []) {}
    else .error .malformedYaml
  | _ => .error .malformedYaml

/-- A token that goes on with a list. -/
def readItems (c : Composer) (style : ListStyle) (list : NodeId) (items : List NodeId)
    (fresh : Bool) (t : Token) : Except Fault Composer :=
  match style, t with
  | .flow, .flowSequenceEnd => c.closeList list items
  | .flow, .flowEntry =>
    if fresh then .error .malformedYaml else .ok { c with stage := .items .flow list items true }
  | .flow, .key =>
    if fresh then c.enterMap (.item .flow list items) {} fun id => .node (.key .pair id []) {}
    else .error .malformedYaml
  | .flow, t => if fresh then c.readNode (.item .flow list items) {} t else .error .malformedYaml
  | style, .blockEntry => .ok { c with stage := .node (.item style list items) {} }
  | .block, .blockEnd => c.closeList list items
  | _, _ => .error .malformedYaml

/-- A token that goes on with a mapping. -/
def readEntries (c : Composer) (style : MapStyle) (map : NodeId) (entries : NodeEntries)
    (fresh : Bool) (t : Token) : Except Fault Composer :=
  match style, t with
  | .flow, .flowMappingEnd => c.closeMap map entries
  | .flow, .flowEntry =>
    if fresh then .error .malformedYaml
    else .ok { c with stage := .entries .flow map entries true }
  | .flow, .key =>
    if fresh then .ok { c with stage := .node (.key .flow map entries) {} }
    else .error .malformedYaml
  | .flow, t => if fresh then c.readNode (.loneKey map entries) {} t else .error .malformedYaml
  | .block, .key => .ok { c with stage := .node (.key .block map entries) {} }
  | .block, .blockEnd => c.closeMap map entries
  | _, _ => .error .malformedYaml

/-- The composer after a token, before which nothing is left out. -/
def read (c : Composer) (t : Token) : Except Fault Composer :=
  match c.stage with
  | .start =>
    match t with
    | .streamEnd =>
      let (id, c) := c.addEmpty
      .ok { c with stage := .finished id }
    | .versionDirective _ | .tagDirective .. | .otherDirective | .documentStart =>
      c.readPrologue false t
    | t => c.readNode (.document false) {} t
  | .prologue version => c.readPrologue version t
  | .node slot head => c.readNode slot head t
  | .items style list items fresh => c.readItems style list items fresh t
  | .entries style map entries fresh => c.readEntries style map entries fresh t
  | .keyed style map entries key =>
    if t == .value then .ok { c with stage := .node (.value style map entries key) {} }
    else .error .malformedYaml
  | .finished root =>
    if t == .documentEnd || t == .streamEnd then .ok c
    else { c with handles := [] }.readEpilogue root false t
  | .epilogue root version => c.readEpilogue root version t

end Composer

/-- The nodes of a stream with the outermost one. -/
structure Document where
  graph : Graph
  root : NodeId

/-- The document of a stream, which has to hold a single one; an empty stream is a null. Of the
tokens and what comes after them, the first fault counts. -/
def Document.ofTokens (ts : List Token) (fault : Option Fault) : Except Fault Document := do
  let c ← ts.foldlM (fun c t => do (← Composer.supply c t).read t) ({} : Composer)
  match fault, c.stage with
  | some fault, _ => throw fault
  | none, .finished root => return ⟨c.graph, root⟩
  | none, _ => throw .malformedYaml

end DocLineage.Yaml
