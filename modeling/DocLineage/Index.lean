import DocLineage.Doclet.OfMapping

/-!
# The index

A nested index of the doclets of some kinds. The dotted parts of a longname lead from one entry to
the next; every indexed doclet has a link to its page, under a name that a part of a longname may
also have.

## Main definitions

* `Index.wantedKinds` — the kinds that a setting asks for
* `Index.place` — one longname entered
* `Index.build` — the index of some doclets
-/

namespace DocLineage.Index

/-- The dotted parts of a longname; there is always at least one. -/
def parts (longname : Text) : List Text := Text.split '.' longname

/-- The link to the page of a doclet. -/
def link (longname : Text) : Value := .text (longname ++ ".html")

/-- The entry of a doclet, given what stood in its place. -/
def page (longname : Text) : Option Value → Except Fault Value
  | none => .ok (.map [(.text "link", link longname)])
  | some (.map entries) => .ok (.map (Mapping.set entries "link" (link longname)))
  | some v => .error (.noAssignment v.kind)

/-- The index with one longname entered along the given parts. Missing entries on the way are
created; a link on the way leads nowhere. -/
def place (longname : Text) (index : Mapping) : List Text → Except Fault Mapping
  | [] => .ok index
  | [item] => do
    return Mapping.set index item (← page longname (Mapping.get? index item))
  | part :: rest => do
    match Mapping.get? index part with
    | none => return Mapping.set index part (.map (← place longname [] rest))
    | some (.map entries) => return Mapping.set index part (.map (← place longname entries rest))
    | some v => throw (.lacks v.kind .child)

/-- The longnames of the doclets of the wanted kinds, in order. -/
def longnames (wanted : List Text) (doclets : List Doclet) : List Text :=
  ((doclets.filter fun d => wanted.contains d.kind && !d.longname.isEmpty).map
    Doclet.longname).mergeSort Text.le

/-- The index of the doclets of the wanted kinds. -/
def build (wanted : List Text) (doclets : List Doclet) : Except Fault Mapping :=
  (longnames wanted doclets).foldlM (fun index name => place name index (parts name)) []

/-- A value that can be an element of a set: a scalar, or a pair of such values. -/
def checkElement : Value → Except Fault Unit
  | .scalar _ => .ok ()
  | .pair first second => do
    checkElement first
    checkElement second
  | v => .error (.unhashable v.kind)

/-- The kinds that a setting asks for: the texts that going through it yields. What cannot be an
element of a set is a fault. -/
def wantedKinds (setting : Value) : Except Fault (List Text) := do
  let items ← setting.items
  items.forM checkElement
  return items.filterMap fun v => match v with
    | .scalar (.text t) => some t
    | _ => none

end DocLineage.Index
