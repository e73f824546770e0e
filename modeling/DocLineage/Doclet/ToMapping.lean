import DocLineage.Doclet.Basic

/-!
# Writing doclets

A doclet is written as the mapping that it was read from, with the resolved documentation laid over
it. Fields that resolution does not own keep their values, and every field its place.

## Main definitions

* `Param.toMapping`, `Return.toMapping` — the parts of a doclet
* `Doclet.toMapping` — the whole
-/

namespace DocLineage

/-- The mapping with a field set, if there is a value for it. -/
def Mapping.setSome (m : Mapping) (name : Text) : Option Value → Mapping
  | some v => m.set name v
  | none => m

/-- The mapping of a parameter: its own fields under the current name and description. -/
def Param.toMapping (p : Param) : Mapping :=
  let named := p.raw.set "name" (.text p.name)
  let described := named.setSome "description" <|
    match p.description with
    | .null => none
    | v => some v
  described.setSome "synthesized" (if p.synthesized then some (.bool true) else none)

/-- The mapping of a return value: its own fields under the current description. -/
def Return.toMapping (r : Return) : Mapping :=
  r.raw.setSome "description" (r.description.map .text)

/-- The mapping of a doclet: the fields it was read from, and over them the prose, the parameters,
the return values, the links and the state of its inheritance. -/
def Doclet.toMapping (d : Doclet) : Mapping :=
  d.raw
    |>.setSome "description" (d.description.text.map .text)
    |>.setSome "summary" (d.summary.text.map .text)
    |>.setSome "classdesc" (d.classdesc.text.map .text)
    |>.setSome "params"
      (if d.params.isEmpty then none else some (.list (d.params.map fun p => .map p.toMapping)))
    |>.setSome "returns" (d.returns.map fun rs => .list (rs.map fun r => .map r.toMapping))
    |>.setSome "see" (if d.see.isEmpty then none else some (Value.ofTexts d.see))
    |>.setSome "inheritParamsOnly" (if d.inheritParamsOnly then some (.bool true) else none)
    |>.setSome "unresolvedInherits"
      (if d.pending.isEmpty then none
       else some (Value.ofTexts (d.pending.map PendingAncestor.identity)))

end DocLineage
