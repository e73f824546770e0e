import DocLineage.Proofs.Persistence
import DocLineage.Proofs.Rereading
import DocLineage.Resolution.Resolve

/-!
# A resolved dump loads back

Whatever a run makes of a loaded doclet, it takes nothing away that the doclet has to say, and the
entries that it adds are copies of loaded ones or placeholders. So a doclet that is written after a
run agrees with the mapping that it was read from where it has nothing to say itself, and what is
read from it then is what was resolved. Only a parameter without a name is lost: a signature may
mention one, and a placeholder stands in for it, but no mapping describes one.

## Main results

* `Doclet.revises_of_ofMapping` — a loaded doclet revises itself
* `Doclet.persistent_revises` — no step of a run takes that away
* `Resolution.ofMapping_written` — a written doclet is read back with all its documentation
-/

namespace DocLineage

/-! ### Loaded doclets -/

namespace Doclet

variable {raw : Mapping} {longname : Text} {seen : List Text} {ms : List Mapping}
  {ps : List Param} {rs : List Return} {d d' loaded : Doclet}

theorem isLegible_of_paramList (h : (paramList longname seen ms).1 = .ok ps) :
    ∀ p ∈ ps, p.IsLegible := by
  induction ms generalizing seen ps with
  | nil =>
    cases h
    exact nofun
  | cons m ms ih =>
    rw [paramList] at h
    split at h
    · exact ih h
    · split at h
      · exact ih h
      · split at h
        · cases h
        · next name _ =>
          split at h
          · exact ih h
          · split at h
            · cases h
            · next p hp =>
              cases hrest : (paramList longname (name :: seen) ms).1 with
              | error fault =>
                simp only [hrest] at h
                cases h
              | ok rest =>
                simp only [hrest] at h
                cases h
                intro q hq
                rcases List.mem_cons.mp hq with rfl | hq
                · exact isLegible_of_param hp
                · exact ih hrest q hq

theorem isLegible_of_mapM (h : ms.mapM returnValue = .ok rs) : ∀ r ∈ rs, r.IsLegible := by
  induction ms generalizing rs with
  | nil =>
    cases h
    exact nofun
  | cons m ms ih =>
    rw [List.mapM_cons] at h
    obtain ⟨r, hr, h⟩ := bind_eq_ok_iff.mp h
    obtain ⟨rest, hrest, h⟩ := bind_eq_ok_iff.mp h
    cases h
    intro r' hr'
    rcases List.mem_cons.mp hr' with rfl | hr'
    · exact isLegible_of_returnValue hr
    · exact ih hrest r' hr'

theorem isLegible_of_returnValues {v : Option Value} {returns : Option (List Return)}
    (h : returnValues v = .ok returns) : ∀ r ∈ returns.getD [], r.IsLegible := by
  unfold returnValues at h
  split at h
  · cases h
    exact nofun
  · cases h
    exact nofun
  · obtain ⟨items, -, h⟩ := bind_eq_ok_iff.mp h
    obtain ⟨rs, hrs, h⟩ := bind_eq_ok_iff.mp h
    cases h
    exact isLegible_of_mapM hrs

/-- A loaded doclet says what it was read from. -/
theorem revises_of_ofMapping (h : ofMapping raw = .ok d) : d.Revises d where
  raw := rfl
  prose _ hnone := hnone
  params hnil := hnil
  names := nodup_names_of_ofMapping h
  legible := by
    obtain ⟨ms, -, hparams⟩ := (Reads.of_ofMapping h).params
    exact isLegible_of_paramList hparams
  returns hnil := hnil
  legibleReturns := isLegible_of_returnValues (Reads.of_ofMapping h).returns
  see hnil := hnil

end Doclet

/-! ### One step of a run -/

/-- A field that inherits has something to say if it had so before. -/
theorem Prose.text_eq_none_of_inherit {own ancestor : Prose} {rank : Int}
    (h : (own.inherit ancestor rank).text = none) : own.text = none := by
  unfold inherit at h
  split at h
  · exact h
  · next hblank =>
    split at h
    · -- what was taken is not blank
      exact absurd (by rw [isBlank, show ancestor.text = none from h]) hblank
    · exact h

namespace Param

variable {own ancestor params : List Param} {placeholder : Value} {signature : List Text}
  {name : Text} {entry p : Param}

theorem mem_replace (h : p ∈ replace name entry params) : p ∈ params ∨ p = entry := by
  induction params with
  | nil => cases h
  | cons q qs ih =>
    rw [replace] at h
    split at h
    · rcases List.mem_cons.mp h with rfl | h
      · exact Or.inr rfl
      · exact Or.inl (List.mem_cons_of_mem q h)
    · rcases List.mem_cons.mp h with rfl | h
      · exact Or.inl List.mem_cons_self
      · exact (ih h).imp_left (List.mem_cons_of_mem q)

theorem mem_slot (h : p ∈ slot ancestor placeholder own name) :
    p ∈ own ∨ p ∈ ancestor ∨ p = standIn placeholder name := by
  unfold slot at h
  cases hown : Doclet.findParam? own name with
  | none =>
    cases hancestor : Doclet.findParam? ancestor name with
    | none =>
      simp only [hown, hancestor, List.mem_append, List.mem_singleton] at h
      exact h.imp_right Or.inr
    | some inherited =>
      simp only [hown, hancestor, List.mem_append, List.mem_singleton] at h
      rcases h with h | rfl
      · exact Or.inl h
      · exact Or.inr (Or.inl (List.mem_of_find?_eq_some hancestor))
  | some q =>
    cases hancestor : Doclet.findParam? ancestor name with
    | none =>
      simp only [hown, hancestor] at h
      exact Or.inl h
    | some inherited =>
      simp only [hown, hancestor] at h
      split at h
      · rcases mem_replace h with h | rfl
        · exact Or.inl h
        · exact Or.inr (Or.inl (List.mem_of_find?_eq_some hancestor))
      · exact Or.inl h

/-- Whatever fills a signature was there, is a copy from the ancestor, or is a placeholder. -/
theorem mem_fill (h : p ∈ fill ancestor placeholder signature own) :
    p ∈ own ∨ p ∈ ancestor ∨ ∃ name, p = standIn placeholder name := by
  unfold fill at h
  split at h
  · exact Or.inl h
  · induction signature generalizing own with
    | nil => exact Or.inl h
    | cons n ns ih =>
      rcases ih h with h | h
      · exact (mem_slot h).imp_right (Or.imp_right fun heq => ⟨n, heq⟩)
      · exact Or.inr h

theorem eq_nil_of_fill (h : fill ancestor placeholder signature own = []) : own = [] := by
  have hnames : (fill ancestor placeholder signature own).map Param.name = [] := by rw [h]; rfl
  rw [map_name_fill] at hnames
  split at hnames
  · exact List.map_eq_nil_iff.mp hnames
  · exact List.map_eq_nil_iff.mp (List.append_eq_nil_iff.mp hnames).1

theorem nodup_fill (h : (own.map Param.name).Nodup) :
    ((fill ancestor placeholder signature own).map Param.name).Nodup := by
  rw [map_name_fill]
  split
  · exact h
  · exact nodup_extend h

/-- A placeholder that says a text is legible. -/
theorem isLegible_standIn (t name : Text) : (standIn (.text t) name).IsLegible where
  description := ⟨some t, rfl⟩
  undescribed := nofun
  documented := nofun

end Param

namespace Doclet.Revises

variable {d d' loaded loaded' ancestor : Doclet}

theorem links {wanted : Bool} {entries : List PendingAncestor} (h : d.Revises loaded)
    (hlinks : d.Links wanted d' entries) : d'.Revises loaded := by
  have hsee : d'.see = [] → loaded.see = [] := by
    intro hnil
    rw [hlinks.see] at hnil
    exact h.see (linked_eq_nil hnil)
  have hprose : ∀ field, (d'.prose field).text = none → (loaded.prose field).text = none := by
    intro field
    rw [hlinks.declares.prose]
    exact h.prose field
  refine ⟨?_, hprose, ?_, ?_, ?_, ?_, ?_, hsee⟩
  all_goals rw [hlinks.declares.eq]
  · exact h.raw
  · exact h.params
  · exact h.names
  · exact h.legible
  · exact h.returns
  · exact h.legibleReturns

theorem inherit (h : d.Revises loaded) (hancestor : ancestor.Revises loaded') (t : Text)
    (mode : InheritMode) (rank : Int) :
    (d.inherit ancestor mode (.text t) rank).Revises loaded := by
  constructor
  case raw => cases mode <;> exact h.raw
  case prose =>
    intro field hnone
    apply h.prose field
    cases mode with
    | paramsOnly => cases field <;> exact hnone
    | full => cases field <;> exact Prose.text_eq_none_of_inherit hnone
  case params =>
    rw [params_inherit]
    exact fun hnil => h.params (Param.eq_nil_of_fill hnil)
  case names =>
    rw [params_inherit]
    exact Param.nodup_fill h.names
  case legible =>
    rw [params_inherit]
    intro p hp
    rcases Param.mem_fill hp with hp | hp | ⟨name, rfl⟩
    · exact h.legible p hp
    · exact hancestor.legible p hp
    · exact Param.isLegible_standIn t name
  case returns =>
    rw [returns_inherit]
    intro hnil
    apply h.returns
    unfold inheritReturns at hnil
    split at hnil
    · cases hnil
    · next hown =>
      cases hd : d.returns with
      | none => rfl
      | some rs =>
        cases rs with
        | nil => rfl
        | cons r rs => exact absurd hd (hown r rs)
  case legibleReturns =>
    rw [returns_inherit]
    unfold inheritReturns
    split
    · next r rs hown => simpa only [hown] using h.legibleReturns
    · exact hancestor.legibleReturns
  case see => cases mode <;> exact h.see

end Doclet.Revises

/-- Whatever happens to a doclet in a run, it says no less than what it was loaded with, and its
entries are legible. -/
theorem Doclet.persistent_revises {settings : Settings} {t : Text}
    (h : settings.placeholder = .text t) (loaded : DocletId → Doclet) :
    Persistent settings fun id d => d.Revises (loaded id) where
  links hd hlinks := hd.links hlinks
  inherit mode rank hd hancestor := by
    rw [h]
    exact hd.inherit hancestor t mode rank
  pending _ hd := { hd with }

/-! ### What is read back -/

/-- What a doclet documents: its prose, its links, its parameters by name, description and whether
they only stand in for others, and the descriptions of its return values. -/
structure Documentation where
  description : Option Text
  summary : Option Text
  classdesc : Option Text
  see : List Text
  params : List (Text × Value × Bool)
  returns : List (Option Text)

/-- The documentation without parameters that have no name. -/
def Documentation.named (d : Documentation) : Documentation :=
  { d with params := d.params.filter fun p => p.1 ≠ [] }

/-- What a doclet documents. No return values and an empty list of them are the same. -/
def Doclet.documentation (d : Doclet) : Documentation where
  description := d.description.text
  summary := d.summary.text
  classdesc := d.classdesc.text
  see := d.see
  params := d.params.map fun p => (p.name, p.description, p.synthesized)
  returns := (d.returns.getD []).map Return.description

/-- What is read back of a written doclet documents what the doclet does, except for parameters
without a name. -/
theorem Doclet.Revises.documentation_renewed {d loaded : Doclet} (h : d.Revises loaded) :
    (d.renewed loaded).documentation = d.documentation.named := by
  have hparams : ((d.params.filter fun p => p.name ≠ []).map Param.renewed).map
      (fun p => (p.name, p.description, p.synthesized)) =
      (d.params.map fun p => (p.name, p.description, p.synthesized)).filter fun p => p.1 ≠ [] := by
    rw [List.map_map, List.filter_map]
    rfl
  have hreturns : (((d.returns.map fun rs => rs.map Return.renewed).or loaded.returns).getD []).map
      Return.description = (d.returns.getD []).map Return.description := by
    cases hd : d.returns with
    | none =>
      -- what was loaded comes back, and it was nothing
      have hloaded : loaded.returns.getD [] = [] := h.returns (by rw [hd]; rfl)
      exact congrArg (List.map Return.description) hloaded
    | some rs =>
      change (rs.map Return.renewed).map Return.description = rs.map Return.description
      rw [List.map_map]
      rfl
  unfold renewed documentation Documentation.named
  rw [hparams, hreturns]

/-- A dump is read if each of its mappings is. -/
theorem Dump.forall₂_of_read {raws : List Mapping} {doclets : List Doclet}
    (h : (read raws).1 = .ok doclets) :
    List.Forall₂ (fun raw d => Doclet.ofMapping raw = .ok d) raws doclets := by
  induction raws generalizing doclets with
  | nil =>
    cases h
    exact .nil
  | cons raw raws ih =>
    rw [read] at h
    split at h
    · cases h
    · next d notices hd =>
      cases hrest : (read raws).1 with
      | error fault =>
        simp only [hrest] at h
        cases h
      | ok rest =>
        simp only [hrest] at h
        cases h
        refine .cons ?_ (ih hrest)
        rw [Doclet.ofMapping, hd]

/-- And if each of its mappings is read, so is the dump. -/
theorem Dump.read_map {α : Type} {f : α → Mapping} {g : α → Doclet} {l : List α}
    (h : ∀ a ∈ l, Doclet.ofMapping (f a) = .ok (g a)) : (read (l.map f)).1 = .ok (l.map g) := by
  induction l with
  | nil => rfl
  | cons a l ih =>
    have hfirst := h a List.mem_cons_self
    have hrest := ih fun b hb => h b (List.mem_cons_of_mem a hb)
    rw [List.map_cons, List.map_cons, read]
    unfold Doclet.ofMapping at hfirst
    cases hread : Doclet.read (f a) with
    | mk outcome notices =>
      rw [hread] at hfirst
      dsimp only at hfirst
      subst hfirst
      dsimp only
      rw [hrest]
      rfl

/-- A dump of which every mapping is read yields the doclets that are read. -/
theorem Dump.read_filterMap {raws : List Mapping}
    (h : ∀ raw ∈ raws, (Doclet.ofMapping raw).toOption.isSome = true) :
    (read raws).1 = .ok (raws.filterMap fun raw => (Doclet.ofMapping raw).toOption) := by
  have hread : ∀ raw ∈ raws,
      Doclet.ofMapping raw = .ok ((Doclet.ofMapping raw).toOption.getD {}) := by
    intro raw hraw
    have hsome := h raw hraw
    cases hd : Doclet.ofMapping raw with
    | error fault =>
      rw [hd] at hsome
      cases hsome
    | ok d => rfl
  have hall := Dump.read_map (f := fun raw => raw) hread
  rw [List.map_id'] at hall
  rw [hall, ← List.filterMap_eq_map]
  congr 1
  apply List.filterMap_congr
  intro raw hraw
  rw [Function.comp_apply, hread raw hraw]
  rfl

theorem Dump.isLoaded_of_read {raws : List Mapping} {doclets : List Doclet}
    (h : (read raws).1 = .ok doclets) : ∀ d ∈ doclets, d.IsLoaded := by
  intro d hd
  obtain ⟨i, hi, rfl⟩ := List.getElem_of_mem hd
  obtain ⟨hlength, hall⟩ := List.forall₂_iff_get.mp (forall₂_of_read h)
  exact ⟨raws[i], hall i (hlength ▸ hi) hi⟩

namespace Stage

variable {settings : Settings} {r₀ r : Run} {m : Stage} {ps : List Pass}

/-- No doclet is added or removed in any state that a run shows. -/
theorem Shows.size_eq (hm : m.Occurs settings r₀) (hshows : m.Shows settings ps r) :
    r.doclets.size = r₀.doclets.size := by
  rw [← Execution.size_eq hm]
  cases hshows with
  | now => rfl
  | partway n _ => exact Run.size_partway
  | failed _ _ _ hdeclared => exact (Run.declares_of_declareAncestors hdeclared).size

end Stage

namespace Resolution

variable {config : Config} {settings : Settings} {doclets : List Doclet} {raws : List Mapping}
  {report : Option Report} {t : Text}

theorem size_runAll (hfresh : ∀ d ∈ doclets, d.IsFresh) :
    (runAll settings doclets).1.doclets.size = doclets.length := by
  obtain ⟨m, hm, hshows, -⟩ := exists_shows hfresh
  rw [hshows.size_eq hm, Run.start, List.size_toArray]

/-- When a run over loaded doclets is over, fault or no fault, each of them says no less than what
it was loaded with. -/
theorem revises_runAll (h : settings.placeholder = .text t)
    (hloaded : ∀ d ∈ doclets, d.IsLoaded) (id : DocletId) :
    ((runAll settings doclets).1.doclet id).Revises ((Run.start doclets).doclet id) := by
  have hpersistent := Doclet.persistent_revises h (Run.start doclets).doclet
  refine hpersistent.runAll (fun d hd => (hloaded d hd).isFresh) (fun x => ?_) id
  by_cases hx : x < doclets.length
  · rw [doclet_start hx]
    obtain ⟨raw, hraw⟩ := hloaded _ (List.getElem_mem hx)
    exact Doclet.revises_of_ofMapping hraw
  · have hsize : (Run.start doclets).doclets.size ≤ x := by simpa [Run.start] using hx
    rw [Run.doclet_of_size_le hsize]
    exact ⟨rfl, fun _ h => h, fun h => h, List.nodup_nil, fun _ h => absurd h List.not_mem_nil,
      fun h => h, fun _ h => absurd h List.not_mem_nil, fun h => h⟩

theorem placeholder_of_ofConfig (h : Settings.ofConfig config = .ok settings) :
    settings.placeholder = config.get "placeholder_description" (.text "undocumented") := by
  obtain ⟨titles, -, h⟩ := Doclet.bind_eq_ok_iff.mp h
  cases h
  rfl

/-- What a resolution leaves at each place is what its run leaves there, and what was given if the
titles keep the run from beginning. -/
theorem doclets_resolve : (resolve config doclets report).doclets =
    match Settings.ofConfig config with
    | .error _ => doclets
    | .ok settings => (runAll settings doclets).1.doclets.toList := by
  unfold resolve
  cases Settings.ofConfig config with
  | error fault => rfl
  | ok settings =>
    unfold Run.finish
    dsimp only
    split <;> rfl

/-- A resolution without a fault has begun, and its run was without a fault. -/
theorem settings_of_resolve (h : (resolve config doclets report).fault = none) :
    ∃ settings, Settings.ofConfig config = .ok settings ∧ (runAll settings doclets).2 = none := by
  unfold resolve at h
  cases hsettings : Settings.ofConfig config with
  | error fault =>
    rw [hsettings] at h
    cases h
  | ok settings =>
    rw [hsettings] at h
    exact ⟨settings, rfl, h⟩

/-- What is true of every doclet that is read, and of every doclet of a run that began with what was
read, is true of what a resolution leaves at each place. -/
theorem forall₂_resolve {Q : Mapping → Doclet → Prop} (hread : (Dump.read raws).1 = .ok doclets)
    (hloaded : ∀ raw d, Doclet.ofMapping raw = .ok d → Q raw d)
    (hrun : ∀ settings, Settings.ofConfig config = .ok settings → ∀ id raw,
      Doclet.ofMapping raw = .ok ((Run.start doclets).doclet id) →
        Q raw ((runAll settings doclets).1.doclet id)) :
    List.Forall₂ Q raws (resolve config doclets report).doclets := by
  have hall := Dump.forall₂_of_read hread
  rw [doclets_resolve]
  cases hsettings : Settings.ofConfig config with
  | error fault => exact hall.imp hloaded
  | ok settings =>
    dsimp only
    obtain ⟨hlength, hget⟩ := List.forall₂_iff_get.mp hall
    have hsize : (runAll settings doclets).1.doclets.size = doclets.length :=
      size_runAll fun d hd => (Dump.isLoaded_of_read hread d hd).isFresh
    rw [List.forall₂_iff_get]
    refine ⟨by rw [hlength, ← hsize, Array.length_toList], fun id hid hid' => ?_⟩
    have hid'' : id < doclets.length := hlength ▸ hid
    have hdoclet : (runAll settings doclets).1.doclet id =
        (runAll settings doclets).1.doclets.toList.get ⟨id, hid'⟩ := by
      rw [Run.doclet, Array.getElem?_eq_getElem (by simpa using hid')]
      rfl
    rw [← hdoclet]
    apply hrun settings hsettings
    rw [doclet_start hid'']
    exact hget id hid hid''

/-- Every doclet that a resolution of a loaded dump leaves says no less than what it was loaded
with. -/
theorem forall₂_revises
    (hplaceholder : config.get "placeholder_description" (.text "undocumented") = .text t)
    (hread : (Dump.read raws).1 = .ok doclets) :
    List.Forall₂ (fun raw d => ∃ loaded, Doclet.ofMapping raw = .ok loaded ∧ d.Revises loaded)
      raws (resolve config doclets report).doclets := by
  refine forall₂_resolve hread ?_ ?_
  · exact fun raw d hraw => ⟨d, hraw, Doclet.revises_of_ofMapping hraw⟩
  · intro settings hsettings id raw hraw
    exact ⟨_, hraw, revises_runAll ((placeholder_of_ofConfig hsettings).trans hplaceholder)
      (Dump.isLoaded_of_read hread) id⟩

/-- Every doclet that a resolution of a loaded dump leaves, fault or no fault, is read back from
what is written of it, and documents what it does, except for parameters without a name. -/
theorem ofMapping_written
    (hplaceholder : config.get "placeholder_description" (.text "undocumented") = .text t)
    (hread : (Dump.read raws).1 = .ok doclets) :
    ∀ d ∈ (resolve config doclets report).doclets, ∃ d',
      Doclet.ofMapping d.toMapping = .ok d' ∧ d'.documentation = d.documentation.named := by
  intro d hd
  obtain ⟨id, hid, rfl⟩ := List.getElem_of_mem hd
  have hrevises : List.Forall₂ _ raws (resolve config doclets report).doclets :=
    forall₂_revises hplaceholder hread
  obtain ⟨hlength, hget⟩ := List.forall₂_iff_get.mp hrevises
  obtain ⟨loaded, hraw, hrevises⟩ := hget id (hlength ▸ hid) hid
  exact ⟨_, hrevises.ofMapping_toMapping hraw, hrevises.documentation_renewed⟩

/-- Two doclets as they are read. The signature of the first one mentions a parameter without a
name, and it inherits the parameters of the other one. -/
def namelessDump : List Mapping := [
  [(.text "longname", .text "D"),
    (.text "meta", .map
      [(.text "code", .map [(.text "paramnames", Value.ofTexts [""])])]),
    (.text "tags", .list
      [.map [(.text "title", .text "inheritparams"), (.text "value", .text "A")]])],
  [(.text "longname", .text "A"), (.text "params", .list [named "x"])]]

/-- The doclets that are read. -/
def nameless : List Doclet := namelessDump.filterMap fun raw => (Doclet.ofMapping raw).toOption

theorem read_nameless : (Dump.read namelessDump).1 = .ok nameless :=
  Dump.read_filterMap (by decide +kernel)

/-- A placeholder stands in for the parameter without a name, and it does not come back. -/
theorem params_nameless : (resolve Config.defaults nameless none).doclets.map (fun d =>
    (d.documentation.params, (Doclet.ofMapping d.toMapping).toOption.map fun d' =>
      d'.documentation.params)) =
    [([(Text.ofString "", Value.text "undocumented", true)], some []),
      ([(Text.ofString "x", Value.null, false)], some [(Text.ofString "x", Value.null, false)])] := by
  cbv

/-- The placeholder for the parameter without a name is not read back, and all else is. -/
theorem ofMapping_written_nameless :
    Config.defaults.get "placeholder_description" (.text "undocumented") = .text "undocumented" ∧
      (Dump.read namelessDump).1 = .ok nameless ∧
      ∃ d d', (resolve Config.defaults nameless none).doclets.head? = some d ∧
        Doclet.ofMapping d.toMapping = .ok d' ∧
        d.documentation.params = [([], .text "undocumented", true)] ∧
        d'.documentation = { d.documentation with params := [] } := by
  refine ⟨rfl, read_nameless, ?_⟩
  have hparams := params_nameless
  cases hdoclets : (resolve Config.defaults nameless none).doclets with
  | nil =>
    rw [hdoclets] at hparams
    cases hparams
  | cons d ds =>
    have hd : d ∈ (resolve Config.defaults nameless none).doclets := by
      rw [hdoclets]
      exact List.mem_cons_self
    rw [hdoclets, List.map_cons, List.cons.injEq, Prod.mk.injEq] at hparams
    obtain ⟨d', hread, hdocumentation⟩ := ofMapping_written rfl read_nameless d hd
    refine ⟨d, d', rfl, hread, hparams.1.1, ?_⟩
    rw [hdocumentation, Documentation.named, hparams.1.1]
    rfl

/-- Not every doclet that a resolution leaves is read back with all its parameters. -/
theorem not_documentation_written : ¬∀ (config : Config) (t : Text) (raws : List Mapping)
    (doclets : List Doclet) (report : Option Report),
    config.get "placeholder_description" (.text "undocumented") = .text t →
    (Dump.read raws).1 = .ok doclets →
    ∀ d ∈ (resolve config doclets report).doclets, ∃ d',
      Doclet.ofMapping d.toMapping = .ok d' ∧ d'.documentation = d.documentation := by
  intro hall
  have hparams := params_nameless
  cases hdoclets : (resolve Config.defaults nameless none).doclets with
  | nil =>
    rw [hdoclets] at hparams
    cases hparams
  | cons d ds =>
    have hd : d ∈ (resolve Config.defaults nameless none).doclets := by
      rw [hdoclets]
      exact List.mem_cons_self
    rw [hdoclets, List.map_cons, List.cons.injEq, Prod.mk.injEq] at hparams
    obtain ⟨d', hread, hdocumentation⟩ :=
      hall Config.defaults "undocumented" namelessDump nameless none rfl read_nameless d hd
    -- the two lists of parameters would be the same
    have hsame := hparams.1.2
    rw [hread] at hsame
    change some d'.documentation.params = some [] at hsame
    rw [hdocumentation, hparams.1.1] at hsame
    cases hsame

end Resolution

end DocLineage
