import DocLineage.Doclet.ToMapping
import DocLineage.Proofs.Lookup

/-!
# Fields laid over a mapping

Whatever is written is the mapping that it was read from, with some fields laid over it. The fields
are given as one list here, so that what is found in the mapping afterwards, and that laying them
over it a second time changes nothing, is proved once for parameters, return values and doclets.

## Main definitions

* `Mapping.layer` — a mapping with a list of fields laid over it, of which some may have no value
* `Param.layers`, `Return.layers`, `Doclet.layers` — the fields that are laid over what was read

## Main results

* `Mapping.get?_layer` — a field that is laid over a mapping is found in it
* `Mapping.layer_layer` — a second layer of the same fields changes nothing
* `Doclet.get?_toMapping`, `Doclet.get?_toMapping_of_not_mem` — what is found in a written doclet
-/

namespace DocLineage

namespace Mapping

variable {m : Mapping} {name name' : Text} {v : Value} {value : Option Value}
  {layers : List (Text × Option Value)}

theorem get?_setSome : (m.setSome name value).get? name' =
    if name = name' then value.or (m.get? name') else m.get? name' := by
  cases value with
  | none => simp [setSome]
  | some v =>
    rw [setSome, get?_set]
    split <;> rfl

/-- The mapping with fields laid over it. A field without a value is left as it is. -/
def layer (m : Mapping) (layers : List (Text × Option Value)) : Mapping :=
  layers.foldl (fun m l => m.setSome l.1 l.2) m

theorem layer_cons {l : Text × Option Value} :
    m.layer (l :: layers) = (m.setSome l.1 l.2).layer layers :=
  rfl

/-- Fields that are not laid over a mapping are found as before. -/
theorem get?_layer_of_not_mem (h : name ∉ layers.map Prod.fst) :
    (m.layer layers).get? name = m.get? name := by
  induction layers generalizing m with
  | nil => rfl
  | cons l ls ih =>
    rw [List.map_cons, List.mem_cons, not_or] at h
    rw [layer_cons, ih h.2, get?_setSome, if_neg (Ne.symm h.1)]

/-- A field that is laid over a mapping is found in it, and the old one if it has no value. -/
theorem get?_layer (hnodup : (layers.map Prod.fst).Nodup) (h : (name, value) ∈ layers) :
    (m.layer layers).get? name = value.or (m.get? name) := by
  induction layers generalizing m with
  | nil => cases h
  | cons l ls ih =>
    rw [List.map_cons, List.nodup_cons] at hnodup
    rw [layer_cons]
    rcases List.mem_cons.mp h with rfl | h
    · -- none of the later fields has the same name
      rw [get?_layer_of_not_mem hnodup.1, get?_setSome, if_pos rfl]
    · have hmem : name ∈ ls.map Prod.fst := List.mem_map_of_mem (f := Prod.fst) h
      have hne : l.1 ≠ name := fun heq => hnodup.1 (heq ▸ hmem)
      rw [ih hnodup.2 h, get?_setSome, if_neg hne]

/-- Fields that a mapping has already change nothing when they are laid over it. -/
theorem layer_eq_self (h : ∀ l ∈ layers, ∀ v, l.2 = some v → m.get? l.1 = some v) :
    m.layer layers = m := by
  induction layers with
  | nil => rfl
  | cons l ls ih =>
    have hfirst : m.setSome l.1 l.2 = m := by
      cases hl : l.2 with
      | none => rfl
      | some v => exact set_eq_self (h l List.mem_cons_self v hl)
    rw [layer_cons, hfirst]
    exact ih fun l' hl' => h l' (List.mem_cons_of_mem l hl')

/-- A second layer of the same fields changes nothing. -/
theorem layer_layer (hnodup : (layers.map Prod.fst).Nodup) :
    (m.layer layers).layer layers = m.layer layers := by
  apply layer_eq_self
  intro l hl v hv
  rw [get?_layer hnodup hl, hv]
  rfl

end Mapping

/-! ### What is laid over what was read -/

/-- The value, unless it is null. -/
def Value.nonNull? : Value → Option Value
  | .null => none
  | v => some v

namespace Param

variable {p : Param}

/-- The fields of a parameter that are laid over what it was read from. -/
def layers (p : Param) : List (Text × Option Value) :=
  [("name", some (.text p.name)), ("description", p.description.nonNull?),
    ("synthesized", if p.synthesized then some (.bool true) else none)]

theorem toMapping_eq_layer : p.toMapping = p.raw.layer p.layers := rfl

theorem nodup_layers : (p.layers.map Prod.fst).Nodup := by
  change [Text.ofString "name", "description", "synthesized"].Nodup
  decide

/-- A parameter that was read from what another one is written as, and says the same, is written
alike. -/
theorem toMapping_setRaw : ({ p with raw := p.toMapping } : Param).toMapping = p.toMapping :=
  Mapping.layer_layer nodup_layers

end Param

namespace Return

variable {r : Return}

/-- The field of a return value that is laid over what it was read from. -/
def layers (r : Return) : List (Text × Option Value) :=
  [("description", r.description.map .text)]

theorem toMapping_eq_layer : r.toMapping = r.raw.layer r.layers := rfl

theorem nodup_layers : (r.layers.map Prod.fst).Nodup := by
  change [Text.ofString "description"].Nodup
  decide

theorem toMapping_setRaw : ({ r with raw := r.toMapping } : Return).toMapping = r.toMapping :=
  Mapping.layer_layer nodup_layers

end Return

namespace Doclet

variable {d : Doclet} {name : Text} {value : Option Value}

/-- The names of the fields that are laid over what a doclet was read from. -/
def ownFields : List Text :=
  ["description", "summary", "classdesc", "params", "returns", "see", "inheritParamsOnly",
    "unresolvedInherits"]

/-- The fields of a doclet that are laid over what it was read from. -/
def layers (d : Doclet) : List (Text × Option Value) :=
  [("description", d.description.text.map .text),
    ("summary", d.summary.text.map .text),
    ("classdesc", d.classdesc.text.map .text),
    ("params",
      if d.params.isEmpty then none else some (.list (d.params.map fun p => .map p.toMapping))),
    ("returns", d.returns.map fun rs => .list (rs.map fun r => .map r.toMapping)),
    ("see", if d.see.isEmpty then none else some (Value.ofTexts d.see)),
    ("inheritParamsOnly", if d.inheritParamsOnly then some (.bool true) else none),
    ("unresolvedInherits",
      if d.pending.isEmpty then none
      else some (Value.ofTexts (d.pending.map PendingAncestor.identity)))]

theorem toMapping_eq_layer : d.toMapping = d.raw.layer d.layers := rfl

theorem map_fst_layers : d.layers.map Prod.fst = ownFields := rfl

theorem nodup_ownFields : ownFields.Nodup := by decide

/-- What resolution does not own is written as it was read. -/
theorem get?_toMapping_of_not_mem (h : name ∉ ownFields) :
    d.toMapping.get? name = d.raw.get? name := by
  rw [toMapping_eq_layer]
  exact Mapping.get?_layer_of_not_mem h

/-- What resolution owns is written as it is, and as it was read if there is nothing to write. -/
theorem get?_toMapping (h : (name, value) ∈ d.layers) :
    d.toMapping.get? name = value.or (d.raw.get? name) := by
  rw [toMapping_eq_layer]
  exact Mapping.get?_layer (map_fst_layers (d := d) ▸ nodup_ownFields) h

end Doclet

end DocLineage
