import DocLineage.Value.Basic

/-!
# Doclets

A doclet is the documentation record of one named code entity. Two doclets may carry the same name,
or none; within a run a doclet is known by the place at which it arrived.

## Main definitions

* `Param`, `Return`, `Tag` — the parts of a record
* `InheritMode`, `PendingAncestor` — an ancestor that a doclet still has to inherit from
* `Prose` — a prose field together with the declaration that it was inherited from
* `Doclet` — the record
-/

namespace DocLineage

/-- A documented parameter. `raw` holds the fields it was read from. -/
structure Param where
  name : Text
  /-- The description, null when there is none. -/
  description : Value := .null
  /-- The entry stands in for a parameter that no one documents. -/
  synthesized : Bool := false
  raw : Mapping := []

/-- A documented return value. `raw` holds the fields it was read from. -/
structure Return where
  description : Option Text := none
  raw : Mapping := []

/-- A tag of a documentation comment, with the text after its title. -/
structure Tag where
  title : Text
  value : Option Text := none
deriving DecidableEq, Repr

/-- How much is copied from an ancestor. -/
inductive InheritMode where
  /-- Parameters and return values. -/
  | paramsOnly
  /-- Parameters, return values and prose. -/
  | full
deriving DecidableEq, Repr

/-- The name of a mode. -/
def InheritMode.label : InheritMode → String
  | .paramsOnly => "params_only"
  | .full => "full"

/-- An ancestor that a doclet still has to inherit from. -/
structure PendingAncestor where
  /-- The longname of the ancestor. -/
  identity : Text
  mode : InheritMode
  /-- The place of the declaration among all declarations of the doclet, from zero. -/
  rank : Int
deriving DecidableEq, Repr

/-- A prose field. -/
structure Prose where
  text : Option Text := none
  /-- The rank of the declaration that the text was inherited through, if it was. -/
  source : Option Int := none
deriving DecidableEq, Repr, Inhabited

/-- A doclet within a run: its place among the doclets of the run, in order of arrival. -/
abbrev DocletId := Nat

/-- The documentation record of one code entity. -/
structure Doclet where
  /-- The full name, empty for an anonymous entity. -/
  longname : Text := []
  name : Text := []
  kind : Text := []
  /-- The full name of the enclosing class. -/
  memberof : Option Text := none
  scope : Option Text := none
  /-- The identity of the code, known before the full name is. -/
  codeId : Option Text := none
  description : Prose := {}
  summary : Prose := {}
  classdesc : Prose := {}
  params : List Param := []
  returns : Option (List Return) := none
  see : List Text := []
  /-- The full names of the classes that a class extends. -/
  superclasses : List Text := []
  /-- The parameter names of the signature, in order. -/
  paramNames : List Text := []
  tags : List Tag := []
  undocumented : Bool := false
  inheritParamsOnly : Bool := false
  pending : List PendingAncestor := []
  /-- The number of ancestors declared so far. -/
  declared : Nat := 0
  /-- The ranks on record for fields other than prose. -/
  otherSources : List (Text × Int) := []
  /-- The class found for an override. -/
  enclosing : Option DocletId := none
  /-- The fields that the record was read from. -/
  raw : Mapping := []

namespace Doclet

/-- The first parameter of the name. -/
def findParam? (params : List Param) (name : Text) : Option Param :=
  params.find? fun p => p.name == name

/-- The doclet waits for no ancestor. -/
def isComplete (d : Doclet) : Bool := d.pending.isEmpty

/-- The longname, or the code identity of an anonymous doclet. -/
def label (d : Doclet) : Option Text :=
  if d.longname.isEmpty then d.codeId else some d.longname

/-- The first of longname, name and code identity that is not empty. -/
def displayName (d : Doclet) : Option Text :=
  if !d.longname.isEmpty then some d.longname
  else if !d.name.isEmpty then some d.name
  else d.codeId

/-- The longname, or the name of an anonymous doclet. -/
def memberName (d : Doclet) : Text := if d.longname.isEmpty then d.name else d.longname

end Doclet

end DocLineage
