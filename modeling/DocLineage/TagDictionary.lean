import DocLineage.Doclet.Basic
import DocLineage.Journal
import DocLineage.Table
import DocLineage.Text.Blank
import DocLineage.Text.Lower

/-!
# Tag dictionaries

A dictionary says which tags mean something, what each of them makes happen, and whether it needs
or refuses a value. Titles are compared without regard to case; of two definitions of one title the
later one counts.

## Main definitions

* `TagDefinition` — what a tag makes happen and whether it takes a value
* `TagDictionary` — definitions by lower-cased title
* `TagDictionary.judge` — what a dictionary makes of a tag
-/

namespace DocLineage

/-- What a tag makes happen, and whether it takes a value. -/
structure TagDefinition (α : Type) where
  action : α
  needsValue : Bool := false
  refusesValue : Bool := false

/-- Definitions by lower-cased title. -/
abbrev TagDictionary (α : Type) := Table Text (TagDefinition α)

/-- The tag has a value that is not blank. -/
def Tag.hasValue (t : Tag) : Bool :=
  match t.value with
  | none => false
  | some t => !t.isBlank

/-- A tag that was ignored: the doclet it stood on, its title, and the reason. -/
structure IgnoredTag where
  doclet : Option Text
  title : Text
  problem : TagProblem
deriving DecidableEq, Repr

/-- What a dictionary makes of a tag. -/
inductive TagVerdict (α : Type) where
  /-- The title has no definition. -/
  | unknown
  | ignored (problem : TagProblem)
  | accepted (action : α)
deriving DecidableEq, Repr

/-- What a definition makes of a tag. -/
def TagDefinition.judge {α : Type} (d : TagDefinition α) (tag : Tag) : TagVerdict α :=
  if d.needsValue && !tag.hasValue then .ignored .needsValue
  else if d.refusesValue && tag.hasValue then .ignored .refusesValue
  else .accepted d.action

namespace TagDictionary

variable {α : Type}

/-- The dictionary with a further definition. -/
def define (d : TagDictionary α) (title : Text) (definition : TagDefinition α) :
    TagDictionary α :=
  d.insert (Text.lower title) definition

/-- The definition of a title. -/
def lookup (d : TagDictionary α) (title : Text) : Option (TagDefinition α) :=
  d.get? (Text.lower title)

/-- What the dictionary makes of a tag. -/
def judge (d : TagDictionary α) (tag : Tag) : TagVerdict α :=
  match d.lookup tag.title with
  | none => .unknown
  | some definition => definition.judge tag

/-- The tags of a doclet that are accepted, with what they make happen. -/
def accepted (d : TagDictionary α) (doclet : Doclet) : List (α × Tag) :=
  doclet.tags.filterMap fun tag =>
    match d.judge tag with
    | .accepted action => some (action, tag)
    | _ => none

/-- The tags of a doclet that are ignored in spite of a definition. -/
def ignored (d : TagDictionary α) (doclet : Doclet) : List IgnoredTag :=
  doclet.tags.filterMap fun tag =>
    match d.judge tag with
    | .ignored problem => some ⟨doclet.displayName, tag.title, problem⟩
    | _ => none

end TagDictionary

/-- The notice of an ignored tag. -/
def IgnoredTag.notice (t : IgnoredTag) : Notice := .tagIgnored t.title t.doclet t.problem

end DocLineage
