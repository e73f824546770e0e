import DocLineage.Config.Settings
import DocLineage.Resolution.Run

/-!
# Declaring ancestors

The three tags by which a doclet asks to inherit. They only record what is asked for; an override
is turned into ancestors when the doclet arrives, since its enclosing class has to be known.

## Main definitions

* `InheritTag`, `InheritTag.dictionary` — the tags and their definitions
* `Run.declare` — an ancestor is declared
* `Run.perform` — what a tag makes happen
* `Run.applyTags` — all tags of a doclet, in order
-/

namespace DocLineage

/-- The tags by which a doclet asks to inherit. -/
inductive InheritTag where
  /-- Parameters and return values of a named ancestor. -/
  | params
  /-- Everything of a named ancestor. -/
  | doc
  /-- Everything of the same member of the superclasses. -/
  | override
deriving DecidableEq, Repr

/-- The definitions of the inheritance tags under the given titles. A title given to two tags stands
for the one that comes later in the order params, doc, override. -/
def InheritTag.dictionary (titles : Titles) : TagDictionary InheritTag :=
  Table.empty
    |>.insert titles.inheritParams { action := .params, needsValue := true }
    |>.insert titles.inheritDoc { action := .doc, needsValue := true }
    |>.insert titles.override { action := .override, refusesValue := true }

namespace Doclet

/-- The doclet with one more declared ancestor. -/
def declare (d : Doclet) (ancestor : Text) (mode : InheritMode) : Doclet :=
  { d with
    declared := d.declared + 1
    pending := d.pending ++ [⟨ancestor, mode, d.declared⟩] }

/-- The doclet with a link, unless it has the link or links are not wanted. -/
def addLink (d : Doclet) (wanted : Bool) (target : Text) : Doclet :=
  if wanted && !d.see.contains target then { d with see := d.see ++ [target] } else d

/-- The doclet with the mark that it inherits parameters and return values only. -/
def markParamsOnly (d : Doclet) (mark : Bool) : Doclet := { d with inheritParamsOnly := mark }

end Doclet

namespace Run

/-- A doclet declares an ancestor. -/
def declare (r : Run) (id : DocletId) (ancestor : Text) (mode : InheritMode) : Run :=
  (r.update id fun d => d.declare ancestor mode).note
    (.inherits (r.doclet id).label mode ancestor)

/-- What an inheritance tag makes happen to the doclet that it stands on. A tag whose value has no
word, and an override of code without an identity, do nothing. -/
def perform (settings : Settings) (r : Run) (id : DocletId) (action : InheritTag) (tag : Tag) :
    Run :=
  let ancestor := Text.firstWord (tag.value.getD [])
  let d := r.doclet id
  match action with
  | .params =>
    if ancestor.isEmpty then r
    else (r.declare id ancestor .paramsOnly).update id fun d => d.markParamsOnly true
  | .doc =>
    if ancestor.isEmpty then r
    else
      (r.declare id ancestor .full).update id fun d =>
        (d.markParamsOnly false).addLink settings.addsSeeLinks ancestor
  | .override =>
    match d.codeId with
    | none | some [] => r
    | some codeId =>
      let marked := (r.note (.overrideFound tag.title d.name codeId)).update id fun d =>
        d.markParamsOnly false
      { marked with registry := marked.registry.addOverride codeId }

/-- One tag of a doclet: accepted, ignored with a record, or passed over. -/
def applyTag (settings : Settings) (id : DocletId) (r : Run) (tag : Tag) : Run :=
  match (InheritTag.dictionary settings.titles).judge tag with
  | .unknown => r
  | .accepted action => r.perform settings id action tag
  | .ignored problem =>
    let record : IgnoredTag := ⟨(r.doclet id).displayName, tag.title, problem⟩
    { r.note record.notice with ignored := r.ignored ++ [record] }

/-- All tags of a doclet, in order. -/
def applyTags (settings : Settings) (r : Run) (id : DocletId) : Run :=
  (r.doclet id).tags.foldl (applyTag settings id) r

end Run

end DocLineage
