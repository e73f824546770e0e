import DocLineage.Proofs.Layers
import DocLineage.Proofs.Loading
import DocLineage.Proofs.Prose

/-!
# Reading what was written

A doclet that has taken part in a run is written over the mapping that it was read from, and may be
read again. What comes back is a fresh doclet with the documentation of the one that was written;
only a parameter without a name does not come back, since a mapping without a name describes none.

## Main definitions

* `Doclet.Reads` — a mapping yields a doclet, field by field
* `Param.IsLegible`, `Return.IsLegible` — entries that agree with what they were read from
* `Doclet.Revises` — a doclet that has taken part in a run, and the one that was loaded
* `Doclet.renewed` — the fresh doclet with the documentation of one that was written

## Main results

* `Doclet.ofMapping_eq_ok_iff` — reading a mapping is reading its fields
* `Param.IsLegible.param_toMapping` — a legible parameter is read back as it was written
* `Doclet.Revises.ofMapping_toMapping` — so is the documentation of a doclet
-/

namespace DocLineage

/-! ### Entries -/

/-- A parameter that agrees with what it was read from: where it has nothing to say, neither has
that. -/
structure Param.IsLegible (p : Param) : Prop where
  description : ∃ t, p.description = Value.ofText? t
  undescribed : p.description = .null → Doclet.optionalField p.raw "description" = .ok none
  documented : p.synthesized = false → Doclet.switch p.raw "synthesized" = false

/-- A return value that agrees with what it was read from. -/
def Return.IsLegible (r : Return) : Prop :=
  r.description = none → Doclet.optionalField r.raw "description" = .ok none

/-- The parameter as it is read back from what it is written as. -/
def Param.renewed (p : Param) : Param := { p with raw := p.toMapping }

/-- The return value as it is read back from what it is written as. -/
def Return.renewed (r : Return) : Return := { r with raw := r.toMapping }

namespace Doclet

variable {m : Mapping} {name longname : Text} {t : Option Text} {p : Param} {r : Return}

/-- A text that was laid over a field is read back, and otherwise the field is read as before. -/
theorem optionalField_of_get? {m' : Mapping}
    (h : m'.get? name = (t.map Value.text).or (m.get? name))
    (hnone : t = none → optionalField m name = .ok none) : optionalField m' name = .ok t := by
  cases t with
  | none =>
    rw [optionalField, h, Option.map_none, Option.none_or]
    exact hnone rfl
  | some t =>
    rw [optionalField, h]
    rfl

/-- The parameter that a mapping describes is legible. -/
theorem isLegible_of_param (h : param m name = .ok p) : p.IsLegible := by
  obtain ⟨t, ht, h⟩ := bind_eq_ok_iff.mp h
  cases h
  refine ⟨⟨t, rfl⟩, fun hnull => ?_, fun hdocumented => hdocumented⟩
  cases t with
  | none => exact ht
  | some t => cases hnull

theorem isLegible_of_returnValue (h : returnValue m = .ok r) : r.IsLegible := by
  obtain ⟨t, ht, h⟩ := bind_eq_ok_iff.mp h
  cases h
  rintro rfl
  exact ht

end Doclet

namespace Param

variable {p : Param} {ps : List Param} {longname : Text} {seen : List Text}

theorem get?_toMapping_name : p.toMapping.get? "name" = some (.text p.name) :=
  Mapping.get?_layer nodup_layers List.mem_cons_self

/-- A legible parameter is read back as it was written. -/
theorem IsLegible.param_toMapping (h : p.IsLegible) :
    Doclet.param p.toMapping p.name = .ok p.renewed := by
  obtain ⟨t, ht⟩ := h.description
  have hdescription : Doclet.optionalField p.toMapping "description" = .ok t := by
    apply Doclet.optionalField_of_get? (m := p.raw)
    · have hget := Mapping.get?_layer (m := p.raw) (nodup_layers (p := p))
        (List.mem_cons_of_mem _ List.mem_cons_self)
      rw [ht] at hget
      cases t <;> exact hget
    · rintro rfl
      exact h.undescribed ht
  have hsynthesized : Doclet.switch p.toMapping "synthesized" = p.synthesized := by
    have hget := Mapping.get?_layer (m := p.raw) (nodup_layers (p := p))
      (List.mem_cons_of_mem _ (List.mem_cons_of_mem _ List.mem_cons_self))
    rw [Doclet.switch, toMapping_eq_layer, hget]
    cases hs : p.synthesized with
    | true => rfl
    | false => exact h.documented hs
  rw [Doclet.param, hdescription]
  change Except.ok (Param.mk p.name (Value.ofText? t) (Doclet.switch p.toMapping "synthesized")
    p.toMapping) = _
  rw [hsynthesized, ← ht]
  rfl

/-- Legible parameters of different names are read back as they were written. What has no name is
passed over. -/
theorem paramList_map_toMapping (hlegible : ∀ p ∈ ps, p.IsLegible)
    (hnodup : (ps.map Param.name).Nodup) (hseen : ∀ p ∈ ps, p.name ∉ seen) :
    (Doclet.paramList longname seen (ps.map toMapping)).1 =
      .ok ((ps.filter fun p => p.name ≠ []).map renewed) := by
  induction ps generalizing seen with
  | nil => rfl
  | cons p ps ih =>
    rw [List.map_cons, List.nodup_cons] at hnodup
    have hrest : ∀ q ∈ ps, q.IsLegible := fun q hq => hlegible q (List.mem_cons_of_mem p hq)
    rw [List.map_cons, Doclet.paramList, get?_toMapping_name]
    dsimp only
    cases hname : p.name with
    | nil =>
      -- an empty name counts as none
      have hskipped : ¬p.name ≠ [] := not_not_intro hname
      rw [List.filter_cons_of_neg (by simpa using hskipped)]
      exact ih hrest hnodup.2 fun q hq => hseen q (List.mem_cons_of_mem p hq)
    | cons s t =>
      have hnamed : p.name ≠ [] := hname ▸ List.cons_ne_nil s t
      have hnew : seen.contains (s :: t) = false := by
        rw [← hname]
        simpa using hseen p List.mem_cons_self
      have hparam : Doclet.param p.toMapping (s :: t) = .ok p.renewed :=
        hname ▸ (hlegible p List.mem_cons_self).param_toMapping
      have hlater : ∀ q ∈ ps, q.name ∉ (s :: t) :: seen := by
        intro q hq hmem
        rcases List.mem_cons.mp hmem with heq | hmem
        · -- the names are different from each other
          exact hnodup.1 (hname ▸ heq ▸ List.mem_map_of_mem hq)
        · exact hseen q (List.mem_cons_of_mem p hq) hmem
      rw [List.filter_cons_of_pos (by simpa using hnamed)]
      simp only [Value.isTruthy, Scalar.isTruthy, List.isEmpty_cons, Bool.not_false, Bool.not_true,
        Bool.false_eq_true, if_false, Value.toText_text, hnew, hparam]
      rw [ih hrest hnodup.2 hlater]
      rfl

end Param

namespace Return

variable {r : Return} {rs : List Return}

/-- A legible return value is read back as it was written. -/
theorem IsLegible.returnValue_toMapping (h : r.IsLegible) :
    Doclet.returnValue r.toMapping = .ok r.renewed := by
  have hdescription : Doclet.optionalField r.toMapping "description" = .ok r.description :=
    Doclet.optionalField_of_get? (Mapping.get?_layer nodup_layers List.mem_cons_self) h
  rw [Doclet.returnValue, hdescription]
  rfl

theorem mapM_returnValue_toMapping (h : ∀ r ∈ rs, r.IsLegible) :
    (rs.map toMapping).mapM Doclet.returnValue = .ok (rs.map renewed) := by
  induction rs with
  | nil => rfl
  | cons r rs ih =>
    rw [List.map_cons, List.mapM_cons, (h r List.mem_cons_self).returnValue_toMapping,
      ih fun r' hr' => h r' (List.mem_cons_of_mem r hr')]
    rfl

end Return

/-! ### Doclets -/

/-- The value of a list of texts. -/
theorem Doclet.texts_ofTexts (ts : List Text) : texts (some (Value.ofTexts ts)) = .ok ts := by
  have hall : (ts.map Value.text).mapM Value.toText = .ok ts := by
    induction ts with
    | nil => rfl
    | cons t ts ih =>
      rw [List.map_cons, List.mapM_cons, Value.toText_text, ih]
      rfl
  cases ts with
  | nil => rfl
  | cons t ts => exact hall

/-- The mappings among values that are mappings are all of them. -/
theorem Value.mappings_map {α : Type} (f : α → Mapping) (as : List α) :
    mappings (as.map fun a => .map (f a)) = as.map f := by
  rw [mappings, List.filterMap_map, ← List.filterMap_eq_map]
  rfl

theorem Doclet.describedMappings_list {α : Type} (f : α → Mapping) (as : List α) :
    describedMappings (some (.list (as.map fun a => .map (f a)))) = .ok (as.map f) := by
  cases as with
  | nil => rfl
  | cons a as => exact congrArg Except.ok (Value.mappings_map f (a :: as))

/-- The name under which a prose field is read and written. -/
def ProseField.name : ProseField → Text
  | .description => "description"
  | .summary => "summary"
  | .classdesc => "classdesc"

namespace Doclet

variable {raw : Mapping} {d loaded : Doclet} {field : ProseField}

/-- A mapping yields a doclet: each of the fields is read without a fault. -/
structure Reads (raw : Mapping) (d : Doclet) : Prop where
  code : ∃ code, heading raw = .ok (code, d.longname) ∧ codeIdentity code = .ok d.codeId ∧
    texts (code.get? "paramnames") = .ok d.paramNames
  name : textField raw "name" = .ok d.name
  kind : textField raw "kind" = .ok d.kind
  memberof : optionalField raw "memberof" = .ok d.memberof
  scope : optionalField raw "scope" = .ok d.scope
  prose : ∀ field : ProseField, optionalField raw field.name = .ok (d.prose field).text
  params : ∃ ms, describedMappings (raw.get? "params") = .ok ms ∧
    (paramList d.longname [] ms).1 = .ok d.params
  returns : returnValues (raw.get? "returns") = .ok d.returns
  see : texts (raw.get? "see") = .ok d.see
  superclasses : texts (raw.get? "augments") = .ok d.superclasses
  tags : tagList raw d.codeId = .ok d.tags
  undocumented : switch raw "undocumented" = d.undocumented
  raw : d.raw = raw
  fresh : d.IsFresh

theorem Reads.of_ofMapping (h : ofMapping raw = .ok d) : Reads raw d := by
  have hfresh := isFresh_of_ofMapping h
  unfold ofMapping read at h
  dsimp only at h
  split at h
  · cases h
  · next code _ described hbeginning =>
    obtain ⟨⟨_, longname⟩, hheading, hbeginning⟩ := bind_eq_ok_iff.mp hbeginning
    obtain ⟨_, hfront, hbeginning⟩ := bind_eq_ok_iff.mp hbeginning
    obtain ⟨_, hdescribed, hbeginning⟩ := bind_eq_ok_iff.mp hbeginning
    cases hbeginning
    obtain ⟨params, hparams, hback⟩ := bind_eq_ok_iff.mp h
    simp only [front, bind_eq_ok_iff] at hfront
    obtain ⟨name, hname, kind, hkind, memberof, hmemberof, scope, hscope, codeId, hcodeId,
      description, hdescription, summary, hsummary, classdesc, hclassdesc, hfront⟩ := hfront
    cases hfront
    simp only [back, bind_eq_ok_iff] at hback
    obtain ⟨returns, hreturns, see, hsee, superclasses, hsuperclasses, paramNames, hparamNames,
      tags, htags, hback⟩ := hback
    cases hback
    refine ⟨⟨_, hheading, hcodeId, hparamNames⟩, hname, hkind, hmemberof, hscope, ?_,
      ⟨described, hdescribed, hparams⟩, hreturns, hsee, hsuperclasses, htags, rfl, rfl, hfresh⟩
    rintro (_ | _ | _)
    · exact hdescription
    · exact hsummary
    · exact hclassdesc

/-- The doclet with what is read before its parameters, and nothing else. -/
def beginning (d : Doclet) : Doclet where
  longname := d.longname
  name := d.name
  kind := d.kind
  memberof := d.memberof
  scope := d.scope
  codeId := d.codeId
  description := { text := d.description.text }
  summary := { text := d.summary.text }
  classdesc := { text := d.classdesc.text }
  undocumented := d.undocumented
  raw := d.raw

theorem IsFresh.eq_beginning (h : d.IsFresh) : d = { d.beginning with
    params := d.params
    returns := d.returns
    see := d.see
    superclasses := d.superclasses
    paramNames := d.paramNames
    tags := d.tags } := by
  have hprose : ∀ p : Prose, p.source = none → p = { text := p.text } := by
    rintro ⟨t, source⟩ rfl
    rfl
  obtain ⟨hpending, hdeclared, hdescription, hsummary, hclassdesc, hmark, hsources, henclosing⟩ := h
  cases d
  dsimp only at *
  subst hpending hdeclared hmark hsources henclosing
  rw [beginning]
  dsimp only
  rw [← hprose _ hdescription, ← hprose _ hsummary, ← hprose _ hclassdesc]

theorem Reads.to_ofMapping (h : Reads raw d) : ofMapping raw = .ok d := by
  obtain ⟨code, hheading, hcodeId, hparamNames⟩ := h.code
  obtain ⟨ms, hms, hparams⟩ := h.params
  have hdescription : optionalField raw "description" = .ok d.description.text :=
    h.prose .description
  have hsummary : optionalField raw "summary" = .ok d.summary.text := h.prose .summary
  have hclassdesc : optionalField raw "classdesc" = .ok d.classdesc.text := h.prose .classdesc
  have hfront : front raw code d.longname = .ok d.beginning := by
    simp only [front, h.name, h.kind, h.memberof, h.scope, hcodeId, hdescription, hsummary,
      hclassdesc, h.undocumented, beginning, h.raw]
    rfl
  have hback : back raw code d.beginning d.params = .ok d := by
    conv_rhs => rw [h.fresh.eq_beginning]
    have htags : tagList raw d.beginning.codeId = .ok d.tags := h.tags
    simp only [back, h.returns, h.see, h.superclasses, hparamNames, htags]
    rfl
  unfold ofMapping read
  rw [hheading]
  dsimp only [bind, Except.bind]
  rw [hfront]
  dsimp only
  rw [hms]
  change ((paramList d.longname [] ms).1 >>= back raw code d.beginning) = _
  rw [hparams]
  exact hback

/-- Reading a mapping is reading its fields. -/
theorem ofMapping_eq_ok_iff : ofMapping raw = .ok d ↔ Reads raw d :=
  ⟨Reads.of_ofMapping, Reads.to_ofMapping⟩

/-! ### Doclets that have taken part in a run -/

/-- A doclet that has taken part in a run, and the doclet that was loaded: the mapping that it was
read from is the same, what it says has not been taken away, and its entries are legible. -/
structure Revises (d loaded : Doclet) : Prop where
  raw : d.raw = loaded.raw
  prose : ∀ field, (d.prose field).text = none → (loaded.prose field).text = none
  params : d.params = [] → loaded.params = []
  names : (d.params.map Param.name).Nodup
  legible : ∀ p ∈ d.params, p.IsLegible
  returns : d.returns.getD [] = [] → loaded.returns.getD [] = []
  legibleReturns : ∀ r ∈ d.returns.getD [], r.IsLegible
  see : d.see = [] → loaded.see = []

/-- The fresh doclet with the documentation of a doclet that was written. Where this one has no
return values to be written, those that were loaded come back. -/
def renewed (d loaded : Doclet) : Doclet :=
  { loaded with
    description := { text := d.description.text }
    summary := { text := d.summary.text }
    classdesc := { text := d.classdesc.text }
    params := (d.params.filter fun p => p.name ≠ []).map Param.renewed
    returns := (d.returns.map fun rs => rs.map Return.renewed).or loaded.returns
    see := d.see
    raw := d.toMapping }

theorem text_prose_renewed : ((d.renewed loaded).prose field).text = (d.prose field).text := by
  cases field <;> rfl

theorem IsFresh.renewed (h : loaded.IsFresh) : (d.renewed loaded).IsFresh :=
  { h with description := rfl, summary := rfl, classdesc := rfl }

theorem mem_layers_prose : (field.name, (d.prose field).text.map .text) ∈ d.layers := by
  cases field <;> simp [layers, ProseField.name, prose]

namespace Revises

/-- The prose of a written doclet is read back. -/
theorem prose_toMapping (h : d.Revises loaded) (hread : Reads raw loaded) :
    optionalField d.toMapping field.name = .ok (d.prose field).text := by
  apply optionalField_of_get? (m := raw)
  · rw [get?_toMapping mem_layers_prose, h.raw, hread.raw]
  · intro hnone
    rw [hread.prose, h.prose field hnone]

/-- The parameters of a written doclet are read back, unless they have no name. -/
theorem params_toMapping (h : d.Revises loaded) (hread : Reads raw loaded) :
    ∃ ms, describedMappings (d.toMapping.get? "params") = .ok ms ∧
      (paramList loaded.longname [] ms).1 =
        .ok ((d.params.filter fun p => p.name ≠ []).map Param.renewed) := by
  have hget : d.toMapping.get? "params" = _ := get?_toMapping
    (List.mem_cons_of_mem _ (List.mem_cons_of_mem _ (List.mem_cons_of_mem _ List.mem_cons_self)))
  rw [h.raw, hread.raw] at hget
  by_cases hnil : d.params = []
  · -- nothing was written, and what was read describes nothing
    obtain ⟨ms, hms, hparams⟩ := hread.params
    rw [h.params hnil] at hparams
    rw [hnil] at hget
    refine ⟨ms, hget ▸ hms, ?_⟩
    rw [hparams, hnil]
    rfl
  · rw [if_neg (by simpa using hnil), Option.some_or] at hget
    refine ⟨d.params.map Param.toMapping, ?_, ?_⟩
    · rw [hget]
      exact describedMappings_list Param.toMapping d.params
    · exact Param.paramList_map_toMapping h.legible h.names fun _ _ => List.not_mem_nil

/-- The return values of a written doclet are read back, and those that were loaded if there are
none. -/
theorem returns_toMapping (h : d.Revises loaded) (hread : Reads raw loaded) :
    returnValues (d.toMapping.get? "returns") =
      .ok ((d.returns.map fun rs => rs.map Return.renewed).or loaded.returns) := by
  have hget : d.toMapping.get? "returns" = _ := get?_toMapping (List.mem_cons_of_mem _
    (List.mem_cons_of_mem _ (List.mem_cons_of_mem _ (List.mem_cons_of_mem _ List.mem_cons_self))))
  rw [h.raw, hread.raw] at hget
  rw [hget]
  cases hreturns : d.returns with
  | none => exact hread.returns
  | some rs =>
    have hlegible : ∀ r ∈ rs, r.IsLegible := by
      intro r hr
      apply h.legibleReturns r
      rw [hreturns]
      exact hr
    change (do return some (← (Value.mappings (rs.map fun r : Return => .map r.toMapping)).mapM
      returnValue)) = _
    rw [Value.mappings_map, Return.mapM_returnValue_toMapping hlegible]
    rfl

/-- The links of a written doclet are read back. -/
theorem see_toMapping (h : d.Revises loaded) (hread : Reads raw loaded) :
    texts (d.toMapping.get? "see") = .ok d.see := by
  have hget : d.toMapping.get? "see" = _ := get?_toMapping (List.mem_cons_of_mem _
    (List.mem_cons_of_mem _ (List.mem_cons_of_mem _ (List.mem_cons_of_mem _
      (List.mem_cons_of_mem _ List.mem_cons_self)))))
  rw [h.raw, hread.raw] at hget
  rw [hget]
  by_cases hnil : d.see = []
  · have hsee := hread.see
    rw [h.see hnil] at hsee
    rw [hnil]
    exact hsee
  · rw [if_neg (by simpa using hnil)]
    exact texts_ofTexts d.see

/-- A written doclet is read back with all its documentation. -/
theorem reads_toMapping (h : d.Revises loaded) (hread : Reads raw loaded) :
    Reads d.toMapping (d.renewed loaded) := by
  -- what resolution does not own is read as it was read before
  have hkept : ∀ name, name ∉ ownFields → d.toMapping.get? name = raw.get? name := by
    intro name hname
    rw [get?_toMapping_of_not_mem hname, h.raw, hread.raw]
  obtain ⟨code, hheading, hcode⟩ := hread.code
  constructor
  case code =>
    refine ⟨code, ?_, hcode⟩
    change heading d.toMapping = .ok (code, loaded.longname)
    rw [← hheading, heading, heading, textField, textField, hkept "meta" (by decide),
      hkept "longname" (by decide)]
  case name => rw [textField, hkept "name" (by decide)]; exact hread.name
  case kind => rw [textField, hkept "kind" (by decide)]; exact hread.kind
  case memberof => rw [optionalField, hkept "memberof" (by decide)]; exact hread.memberof
  case scope => rw [optionalField, hkept "scope" (by decide)]; exact hread.scope
  case prose => intro field; rw [text_prose_renewed]; exact h.prose_toMapping hread
  case params => exact h.params_toMapping hread
  case returns => exact h.returns_toMapping hread
  case see => exact h.see_toMapping hread
  case superclasses => rw [hkept "augments" (by decide)]; exact hread.superclasses
  case tags =>
    rw [tagList, hkept "tags" (by decide), hkept "override" (by decide)]
    exact hread.tags
  case undocumented => rw [switch, hkept "undocumented" (by decide)]; exact hread.undocumented
  case raw => rfl
  case fresh => exact hread.fresh.renewed

/-- A written doclet is read back without a fault, with all its documentation. -/
theorem ofMapping_toMapping (h : d.Revises loaded) (hread : ofMapping raw = .ok loaded) :
    ofMapping d.toMapping = .ok (d.renewed loaded) :=
  (h.reads_toMapping (.of_ofMapping hread)).to_ofMapping

end Revises

end Doclet

end DocLineage
