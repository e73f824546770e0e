import DocLineage.Fault
import DocLineage.Yaml.Graph

/-!
# Borrowed entries

A mapping may name others that lend it their entries, under a key of its own. The entries that it
borrows come before its own, and those of mappings named in one list from last to first, so that its
own entries and then the mappings named first take precedence. A lender may be a borrower itself,
and even borrow from its own borrower.

## Main definitions

* `Yaml.Graph.borrowed?` — the first place where a mapping names lenders
* `Yaml.Graph.flatten` — a mapping with all that it borrows among its entries
-/

namespace DocLineage.Yaml

namespace Graph

/-- What a mapping names as its lenders first, and its entries without that one. -/
def borrowed? (g : Graph) : NodeEntries → Option (NodeId × NodeEntries)
  | [] => none
  | (k, v) :: es =>
    if g.typeOf k == .merge then some (v, es)
    else (g.borrowed? es).map fun (lenders, rest) => (lenders, (k, v) :: rest)

/-- Keys that stand for the value of a mapping as a scalar are texts among its entries. -/
def nameDefaults (g : Graph) (es : NodeEntries) : Graph :=
  es.foldl (fun g e => if g.typeOf e.1 == .default then g.setType e.1 .text else g) g

/-- How many entries of all mappings name lenders. -/
def lenderCount (g : Graph) : Nat :=
  g.nodes.foldl (fun count n => match n.content with
    | .map entries => count + entries.countP fun e => g.typeOf e.1 == .merge
    | _ => count) 0

/-- The graph with the entries of a mapping and all that it borrows, after what was borrowed so
far. Every entry that names lenders is taken out once, and `fuel` is at least their number. -/
def borrow (fuel : Nat) (g : Graph) (id : NodeId) (borrowed : NodeEntries) : Except Fault Graph :=
  match fuel with
  | 0 => .ok g
  | fuel + 1 =>
    match g.borrowed? (g.entriesOf id) with
    | none =>
      let entries := borrowed ++ g.entriesOf id
      .ok ((g.setContent id (.map entries)).nameDefaults entries)
    | some (lenders, rest) => do
      let g := g.setContent id (.map rest)
      match (g.node lenders).content with
      | .scalar _ => throw .malformedYaml
      | .map _ =>
        let g ← borrow fuel g lenders []
        borrow fuel g id (borrowed ++ g.entriesOf lenders)
      | .list items =>
        let (g, lent) ← items.foldlM (fun (g, lent) item => do
          if !g.isMap item then throw .malformedYaml
          let g ← borrow fuel g item []
          return (g, g.entriesOf item ++ lent)) (g, [])
        borrow fuel g id (borrowed ++ lent)

/-- The graph with all that a mapping borrows among its entries; no more than a number of entries
name lenders. -/
def flatten (count : Nat) (g : Graph) (id : NodeId) : Except Fault Graph :=
  g.borrow (count + 1) id []

end Graph

end DocLineage.Yaml
