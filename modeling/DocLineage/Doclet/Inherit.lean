import DocLineage.Doclet.Basic
import DocLineage.Text.Blank

/-!
# Inheriting from an ancestor

What a doclet takes from one ancestor. Return values are taken by a doclet that documents none.
Parameters follow the signature of the doclet: its own entries stay, placeholders give way to the
ancestor's entries, and missing ones are taken from the ancestor or filled by placeholders. Prose
is taken where the doclet has none, and prose inherited through a later declaration gives way to
prose inherited through an earlier one.

## Main definitions

* `Prose.inherit` — a prose field after inheriting from the same field of an ancestor
* `Param.slot`, `Param.fill` — one parameter of the signature, and all of them
* `Doclet.inherit` — the doclet after inheriting from an ancestor
-/

namespace DocLineage

namespace Prose

/-- The field says nothing. -/
def isBlank (p : Prose) : Bool :=
  match p.text with
  | none => true
  | some t => t.isBlank

/-- The field was inherited through a declaration that comes after the given one. -/
def isOutranked (p : Prose) (rank : Int) : Bool :=
  match p.source with
  | none => false
  | some source => rank < source

/-- A field after inheriting from an ancestor's field through the declaration of a rank. What the
ancestor leaves blank is never taken. -/
def inherit (own ancestor : Prose) (rank : Int) : Prose :=
  if ancestor.isBlank then own
  else if own.isBlank || own.isOutranked rank then ⟨ancestor.text, some rank⟩
  else own

theorem inherit_of_isBlank {ancestor : Prose} (h : ancestor.isBlank = true) (own : Prose)
    (rank : Int) : own.inherit ancestor rank = own := by
  simp [inherit, h]

end Prose

namespace Param

/-- The entry that stands in for a parameter that no one documents. -/
def standIn (placeholder : Value) (name : Text) : Param :=
  { name, description := placeholder, synthesized := true }

/-- The parameters with the first one of the name replaced. -/
def replace (name : Text) (entry : Param) : List Param → List Param
  | [] => []
  | p :: ps => if p.name == name then entry :: ps else p :: replace name entry ps

/-- The parameters of a doclet after the slot of one name of its signature is filled: an entry of
its own stays unless it is a placeholder and the ancestor has an entry; a missing one is taken from
the ancestor or filled by a placeholder. -/
def slot (ancestor : List Param) (placeholder : Value) (own : List Param) (name : Text) :
    List Param :=
  match Doclet.findParam? own name, Doclet.findParam? ancestor name with
  | some p, some inherited => if p.synthesized then replace name inherited own else own
  | some _, none => own
  | none, some inherited => own ++ [inherited]
  | none, none => own ++ [standIn placeholder name]

/-- The parameters of a doclet after the slots of its whole signature are filled in order. An
ancestor without parameters fills none. -/
def fill (ancestor : List Param) (placeholder : Value) (signature : List Text)
    (own : List Param) : List Param :=
  if ancestor.isEmpty then own else signature.foldl (slot ancestor placeholder) own

end Param

namespace Doclet

/-- The return values of a doclet that documents none are those of the ancestor. -/
def inheritReturns (own ancestor : Option (List Return)) : Option (List Return) :=
  match own with
  | some (r :: rs) => some (r :: rs)
  | _ => ancestor

/-- The doclet after inheriting from an ancestor through the declaration of a mode and a rank. -/
def inherit (d ancestor : Doclet) (mode : InheritMode) (placeholder : Value) (rank : Int) :
    Doclet :=
  let signed :=
    { d with
      returns := inheritReturns d.returns ancestor.returns
      params := Param.fill ancestor.params placeholder d.paramNames d.params }
  match mode with
  | .paramsOnly => signed
  | .full =>
    { signed with
      description := d.description.inherit ancestor.description rank
      summary := d.summary.inherit ancestor.summary rank
      classdesc := d.classdesc.inherit ancestor.classdesc rank }

@[simp] theorem params_inherit (d ancestor : Doclet) (mode : InheritMode) (placeholder : Value)
    (rank : Int) : (d.inherit ancestor mode placeholder rank).params =
      Param.fill ancestor.params placeholder d.paramNames d.params := by
  cases mode <;> rfl

@[simp] theorem returns_inherit (d ancestor : Doclet) (mode : InheritMode) (placeholder : Value)
    (rank : Int) : (d.inherit ancestor mode placeholder rank).returns =
      inheritReturns d.returns ancestor.returns := by
  cases mode <;> rfl

@[simp] theorem paramNames_inherit (d ancestor : Doclet) (mode : InheritMode) (placeholder : Value)
    (rank : Int) : (d.inherit ancestor mode placeholder rank).paramNames = d.paramNames := by
  cases mode <;> rfl

@[simp] theorem longname_inherit (d ancestor : Doclet) (mode : InheritMode) (placeholder : Value)
    (rank : Int) : (d.inherit ancestor mode placeholder rank).longname = d.longname := by
  cases mode <;> rfl

@[simp] theorem pending_inherit (d ancestor : Doclet) (mode : InheritMode) (placeholder : Value)
    (rank : Int) : (d.inherit ancestor mode placeholder rank).pending = d.pending := by
  cases mode <;> rfl

end Doclet

end DocLineage
