import DocLineage.Proofs.Linking
import DocLineage.Proofs.Remerging
import DocLineage.Proofs.Showing
import DocLineage.Proofs.SideBySide

/-!
# Resolving what was resolved

What is written after a run is read back and resolved once more. No step of a run depends on what
is documented, so the second run takes the steps of the first one: the same ancestors are declared
again, and the same of them are merged again in the same order. It begins with the documentation
that the first run ended with, and none of these merges adds to it. So what is written after the
second run is what was written after the first one.

## Main definitions

* `Mirror.retracing` — runs over doclets that may document something else
* `Resolution.Retraces` — a run that takes the steps of another one
* `Doclet.Echoes` — a doclet with the documentation of another one, as it is read back
* `Resolution.reloaded` — the doclets that are read back after a run

## Main results

* `Resolution.retraces_of_course` — what the doclets document does not steer a run
* `Resolution.Settled.echoes` — the second run ends with the documentation of the first one
* `Resolution.resolve_written` — resolving what was resolved changes nothing that is written
-/

namespace DocLineage

/-! ### What steers a run -/

/-- The counterparts are at the same places, and they may document something else. All names are
their own, or none of them is. -/
def Mirror.retracing (settings : Settings) (own : Prop) : Mirror settings where
  place := fun x => x
  Alike d d' := d'.course = d.course
  Own _ := own
  Foreign _ := ¬own
  disjoint _ h h' := h' h
  course h := h
  declare ancestor mode h := congrArg (fun d => d.declare ancestor mode) h
  mark mark h := congrArg (fun d => d.markParamsOnly mark) h
  link {d d'} target h := by
    -- links do not steer a run
    have hlink : ∀ d : Doclet,
        (d.addLink settings.addsSeeLinks target).course = d.course := by
      intro d
      unfold Doclet.addLink
      split <;> rfl
    rw [hlink, hlink, h]
  enclose _ h := h
  inherit {d d' ancestor ancestor'} mode rank h _ := by
    -- and neither does what is inherited
    have hinherit : ∀ d ancestor : Doclet,
        (d.inherit ancestor mode settings.placeholder rank).course = d.course := by
      intro d ancestor
      cases mode <;> rfl
    rw [hinherit, hinherit, h]
  pending pending h := congrArg (fun d : Doclet => { d with pending }) h

/-- A pass over the counterpart at the same place is the pass itself. -/
theorem Pass.moved_self (p : Pass) : p.moved (fun x => x) = p := by
  have hmerges : p.merges.map (Merge.moved fun x => x) = p.merges :=
    List.map_id'' (fun _ => rfl) p.merges
  rw [moved, hmerges]

namespace Resolution

variable {settings : Settings} {doclets doclets' : List Doclet} {id : DocletId}

/-- A run over a second list takes the steps of the run over a first one. -/
structure Retraces (settings : Settings) (doclets doclets' : List Doclet) : Prop where
  ended : (runAll settings doclets').2 = none
  course : ∀ id < doclets.length, ((runAll settings doclets').1.doclet id).course =
    ((runAll settings doclets).1.doclet id).course
  documented : documented settings doclets' = documented settings doclets
  declared : ∀ id ∈ Resolution.documented settings doclets,
    (declared settings doclets' id).course = (declared settings doclets id).course
  passes : passes settings doclets' = passes settings doclets

/-- An empty list refers to nothing. -/
theorem solo_nil (c : Mirror settings) : Solo c [] where
  fresh := List.forall_mem_nil _
  ended := rfl
  refers n h := by
    have hnone : documented settings [] = [] := rfl
    cases h with
    | ancestor hid _ => exact absurd (hnone ▸ hid) List.not_mem_nil
    | enclosing hid _ _ => exact absurd (hnone ▸ hid) List.not_mem_nil

/-- All doclets are counterparts, and there are none beside them. -/
theorem joint_of_course (hfresh : ∀ d ∈ doclets, d.IsFresh)
    (hfresh' : ∀ d ∈ doclets', d.IsFresh) (hended : (runAll settings doclets).2 = none)
    (hlength : doclets'.length = doclets.length)
    (hcourse : ∀ id < doclets.length,
      ((Run.start doclets').doclet id).course = ((Run.start doclets).doclet id).course) :
    Joint (.retracing settings True) (.retracing settings False) doclets [] doclets'
      doclets.length 0 doclets'.length := by
  have hsolo : Solo (.retracing settings True) doclets :=
    ⟨hfresh, hended, fun _ _ hforeign => hforeign trivial⟩
  refine joint_of_interleaving hfresh' hsolo (solo_nil _) ?_ ?_
  · have hplaces : Interleaving (List.range doclets.length) [] (List.range doclets.length) :=
      Interleaving.nil.append_left (List.range doclets.length)
    rw [hlength]
    change Interleaving ((List.range doclets.length).map fun x => x) [] _
    rw [List.map_id']
    exact hplaces
  · constructor
    case left =>
      apply Mirror.holds_start hfresh
      · exact fun id hid => hlength ▸ hid
      · exact fun x _ y _ heq => heq
      · exact hcourse
      · exact fun _ _ _ => trivial
    case right =>
      apply Mirror.holds_start (List.forall_mem_nil _)
      · exact fun _ hid => absurd hid (Nat.not_lt_zero _)
      · exact fun _ hid => absurd hid (Nat.not_lt_zero _)
      · exact fun _ hid => absurd hid (Nat.not_lt_zero _)
      · exact List.forall_mem_nil _
    case apart => exact fun _ _ _ hid => absurd hid (Nat.not_lt_zero _)
    case foreign_right => exact fun _ _ hfalse => hfalse
    case foreign_left => exact fun _ hfalse _ => hfalse

/-- What the doclets document does not steer a run. -/
theorem retraces_of_course (hfresh : ∀ d ∈ doclets, d.IsFresh)
    (hfresh' : ∀ d ∈ doclets', d.IsFresh) (hended : (runAll settings doclets).2 = none)
    (hlength : doclets'.length = doclets.length)
    (hcourse : ∀ id < doclets.length,
      ((Run.start doclets').doclet id).course = ((Run.start doclets).doclet id).course) :
    Retraces settings doclets doclets' := by
  have hjoint := joint_of_course hfresh hfresh' hended hlength hcourse
  have hsize : (runAll settings doclets).1.doclets.size = doclets.length := size_runAll hfresh
  have hdocumented : documented settings doclets' = documented settings doclets := by
    unfold documented
    rw [hlength]
    apply List.filter_congr
    intro id hid
    have hskipped : Run.isSkipped settings ((Run.start doclets').doclet id) =
        Run.isSkipped settings ((Run.start doclets).doclet id) :=
      Doclet.field_of_course (Run.isSkipped settings) (fun _ => rfl)
        (hcourse id (List.mem_range.mp hid))
    rw [takesPart, hskipped, takesPart]
  have harrivals : ∀ id ∈ documented settings doclets,
      (declared settings doclets' id).course = (declared settings doclets id).course ∧
        passesAt settings doclets' id = passesAt settings doclets id := by
    intro id hid
    have hpart := (List.mem_filter.mp hid).2
    obtain ⟨halike, hpasses⟩ := hjoint.arrivals_left id (lt_length_of_documented hid) hpart
    exact ⟨halike, hpasses.trans (List.map_id'' Pass.moved_self _)⟩
  constructor
  case ended => exact hjoint.fault
  case course =>
    intro id hid
    rw [← hsize] at hid
    exact hjoint.beside.left.alike id hid
  case documented => exact hdocumented
  case declared => exact fun id hid => (harrivals id hid).1
  case passes =>
    rw [passes, passes, hdocumented]
    exact List.flatMap_congr fun id hid => (harrivals id hid).2

end Resolution

/-! ### The same documentation -/

/-- A doclet documents what another one does, as far as it is read back. -/
structure Doclet.Echoes (d d' : Doclet) : Prop where
  prose : ∀ field, (d'.prose field).text = (d.prose field).text
  params : d'.params.map Param.renewed = d.params.map Param.renewed
  returns : d'.returns.map (List.map Return.renewed) = d.returns.map (List.map Return.renewed)

/-- A return value that was read back is read back as it is. -/
theorem Return.renewed_renewed (r : Return) : r.renewed.renewed = r.renewed := by
  have hraw : r.renewed.toMapping = r.toMapping := toMapping_setRaw
  unfold renewed at hraw ⊢
  rw [hraw]

namespace Doclet

variable {d d' loaded : Doclet}

/-- What steers a run is read back as it was loaded. -/
theorem course_renewed : (d.renewed loaded).course = loaded.course := rfl

/-- Where all parameters have names, they are read back as they were written. -/
theorem params_renewed (h : ∀ p ∈ d.params, p.name ≠ []) :
    (d.renewed loaded).params.map Param.renewed = d.params.map Param.renewed := by
  have hall : d.params.filter (fun p => p.name ≠ []) = d.params :=
    List.filter_eq_self.mpr fun p hp => decide_eq_true (h p hp)
  change ((d.params.filter fun p => p.name ≠ []).map Param.renewed).map Param.renewed = _
  rw [hall, List.map_map]
  exact List.map_congr_left fun _ _ => Param.renewed_renewed

/-- Return values are read back as they were written, and those that were loaded if none were. -/
theorem returns_renewed : (d.renewed loaded).returns.map (List.map Return.renewed) =
      d.returns.map (List.map Return.renewed) ∨
    (d.renewed loaded).returns = loaded.returns := by
  unfold renewed
  cases d.returns with
  | none => exact Or.inr rfl
  | some rs =>
    left
    change some ((rs.map Return.renewed).map Return.renewed) = some (rs.map Return.renewed)
    rw [List.map_map]
    exact congrArg some (List.map_congr_left fun r _ => r.renewed_renewed)

/-- A doclet that has not changed since it was loaded documents the same when it is read back. -/
theorem echoes_renewed_self (h : ∀ p ∈ d.params, p.name ≠ []) : d.Echoes (d.renewed d) where
  prose _ := text_prose_renewed
  params := params_renewed h
  returns := by
    rcases @returns_renewed d d with hreturns | hreturns
    · exact hreturns
    · rw [hreturns]

/-- What is pending is no part of the documentation. -/
theorem Echoes.setPending (h : d.Echoes d') (pending pending' : List PendingAncestor) :
    Echoes { d with pending } { d' with pending := pending' } where
  prose field := by
    have hprose := h.prose field
    cases field <;> exact hprose
  params := h.params
  returns := h.returns

/-- What is written of parameters is what they are read back from. -/
theorem written_params (ps : List Param) : ps.map (fun p => Value.map p.toMapping) =
    (ps.map Param.renewed).map fun p => Value.map p.raw := by
  rw [List.map_map]
  rfl

theorem written_returns (returns : Option (List Return)) :
    returns.map (fun rs => Value.list (rs.map fun r => .map r.toMapping)) =
      (returns.map (List.map Return.renewed)).map fun rs =>
        Value.list (rs.map fun r => .map r.raw) := by
  cases returns with
  | none => rfl
  | some rs =>
    change some (Value.list _) = some (Value.list ((rs.map Return.renewed).map _))
    rw [List.map_map]
    rfl

/-- A doclet that is in the same state otherwise, and documents the same, is written with the same
fields. -/
theorem Echoes.layers_eq (h : d.Echoes d') (hcourse : d'.course = d.course)
    (hsee : d'.see = d.see) : d'.layers = d.layers := by
  have hdescription : d'.description.text = d.description.text := h.prose .description
  have hsummary : d'.summary.text = d.summary.text := h.prose .summary
  have hclassdesc : d'.classdesc.text = d.classdesc.text := h.prose .classdesc
  have hempty : d'.params.isEmpty = d.params.isEmpty := by
    rw [← List.isEmpty_map (f := Param.renewed), h.params, List.isEmpty_map]
  have hmark : d'.inheritParamsOnly = d.inheritParamsOnly :=
    field_of_course Doclet.inheritParamsOnly (fun _ => rfl) hcourse
  have hpending : d'.pending = d.pending :=
    field_of_course Doclet.pending (fun _ => rfl) hcourse
  rw [layers, layers, written_params, written_params, written_returns, written_returns,
    hdescription, hsummary, hclassdesc, hempty, h.params, h.returns, hsee, hmark, hpending]

end Doclet

/-! ### What is read back -/

namespace Resolution

/-- Doclets that were loaded, with signatures that name all their parameters, and with a text for a
placeholder, when they are resolved without a fault. -/
structure Settled (settings : Settings) (doclets : List Doclet) : Prop where
  loaded : ∀ d ∈ doclets, d.IsLoaded
  named : ∀ d ∈ doclets, [] ∉ d.paramNames
  placeholder : ∃ t, settings.placeholder = .text t
  ended : (runAll settings doclets).2 = none

/-- The doclets that are read back from what is written after a run. -/
def reloaded (settings : Settings) (doclets : List Doclet) : List Doclet :=
  (List.range doclets.length).map fun id =>
    ((runAll settings doclets).1.doclet id).renewed ((Run.start doclets).doclet id)

variable {settings : Settings} {doclets : List Doclet} {id : DocletId}

theorem length_reloaded : (reloaded settings doclets).length = doclets.length := by
  rw [reloaded, List.length_map, List.length_range]

theorem doclet_start_reloaded (hid : id < doclets.length) :
    (Run.start (reloaded settings doclets)).doclet id =
      ((runAll settings doclets).1.doclet id).renewed ((Run.start doclets).doclet id) := by
  rw [doclet_start (length_reloaded.symm ▸ hid)]
  simp [reloaded]

namespace Settled

theorem fresh (h : Settled settings doclets) : ∀ d ∈ doclets, d.IsFresh :=
  fun d hd => (h.loaded d hd).isFresh

theorem execution (h : Settled settings doclets) : Execution settings (Run.start doclets)
    ((documented settings doclets).map (arrival settings doclets)) (passes settings doclets)
    (runAll settings doclets).1 [] none :=
  Resolution.execution h.fresh (Prod.ext rfl h.ended)

/-- What is written after the run is read back without a fault. -/
theorem read_written (h : Settled settings doclets) :
    (Dump.read ((runAll settings doclets).1.doclets.toList.map Doclet.toMapping)).1 =
      .ok (reloaded settings doclets) := by
  obtain ⟨t, ht⟩ := h.placeholder
  rw [Run.toList_doclets, size_runAll h.fresh, List.map_map]
  apply Dump.read_map
  intro id hid
  have hid : id < doclets.length := List.mem_range.mp hid
  obtain ⟨raw, hraw⟩ := h.loaded _ (List.getElem_mem hid)
  rw [← doclet_start hid] at hraw
  exact (revises_runAll ht h.loaded id).ofMapping_toMapping hraw

theorem isLoaded_reloaded (h : Settled settings doclets) :
    ∀ d ∈ reloaded settings doclets, d.IsLoaded :=
  Dump.isLoaded_of_read h.read_written

theorem fresh_reloaded (h : Settled settings doclets) :
    ∀ d ∈ reloaded settings doclets, d.IsFresh :=
  fun d hd => (h.isLoaded_reloaded d hd).isFresh

/-- After the run all parameters have names. -/
theorem name_ne_nil (h : Settled settings doclets) (hid : id < doclets.length) :
    ∀ p ∈ ((runAll settings doclets).1.doclet id).params, p.name ≠ [] := by
  have hrun : Stage.Occurs settings (Run.start doclets) ⟨_, passes settings doclets,
      (runAll settings doclets).1, [], none⟩ := h.execution
  obtain ⟨hextended, hkept⟩ := Stage.Shows.map_name_params hrun .now id
  obtain ⟨raw, hraw⟩ := h.loaded _ (List.getElem_mem hid)
  have hown := Doclet.name_ne_nil_of_ofMapping hraw
  have hsignature := h.named _ (List.getElem_mem hid)
  rw [← doclet_start hid] at hown hsignature
  intro p hp hnil
  have hname : [] ∈ ((runAll settings doclets).1.doclet id).params.map Param.name :=
    List.mem_map.mpr ⟨p, hp, hnil⟩
  have hlisted : [] ∉ ((Run.start doclets).doclet id).params.map Param.name := by
    intro hmem
    obtain ⟨q, hq, hq'⟩ := List.mem_map.mp hmem
    exact hown q hq hq'
  by_cases hsome : ∃ m ∈ mergesInto (passes settings doclets) id,
      ((runAll settings doclets).1.doclet m.ancestor).params ≠ []
  · rw [hextended hsome, Param.extend, List.mem_append, Param.mem_missing] at hname
    rcases hname with hname | ⟨hname, -⟩
    · exact hlisted hname
    · exact hsignature hname
  · rw [hkept (by simpa using hsome)] at hname
    exact hlisted hname

/-- The second run takes the steps of the first one. -/
theorem retraces (h : Settled settings doclets) :
    Retraces settings doclets (reloaded settings doclets) := by
  apply retraces_of_course h.fresh h.fresh_reloaded h.ended length_reloaded
  intro id hid
  rw [doclet_start_reloaded hid, Doclet.course_renewed]

theorem execution_reloaded (h : Settled settings doclets) :
    Execution settings (Run.start (reloaded settings doclets))
      ((documented settings doclets).map (arrival settings (reloaded settings doclets)))
      (passes settings doclets) (runAll settings (reloaded settings doclets)).1 [] none := by
  have hretraces := h.retraces
  have hrun := Resolution.execution h.fresh_reloaded (Prod.ext rfl hretraces.ended)
  rwa [hretraces.documented, hretraces.passes] at hrun

/-- A doclet that takes no part is read back as it was loaded, and takes no part again. -/
theorem doclet_of_not_documented (h : Settled settings doclets) (hid : id < doclets.length)
    (hpart : id ∉ documented settings doclets) :
    (runAll settings doclets).1.doclet id = (Run.start doclets).doclet id ∧
      (runAll settings (reloaded settings doclets)).1.doclet id =
        ((Run.start doclets).doclet id).renewed ((Run.start doclets).doclet id) := by
  have hnot : ∀ doclets' : List Doclet,
      id ∉ ((documented settings doclets).map (arrival settings doclets')).map Arrival.id := by
    intro doclets' hmem
    rw [List.map_map, List.mem_map] at hmem
    obtain ⟨x, hx, rfl⟩ := hmem
    exact hpart hx
  have hsame := h.execution.doclet_of_not_arrived (hnot doclets)
  have hsame' := h.execution_reloaded.doclet_of_not_arrived (hnot (reloaded settings doclets))
  rw [doclet_start_reloaded hid, hsame] at hsame'
  exact ⟨hsame, hsame'⟩

/-- A doclet that takes part ends with the same documentation again if all that it merges does. -/
theorem echoes_of_documented (h : Settled settings doclets)
    (hpart : id ∈ documented settings doclets)
    (hread : ∀ m ∈ mergesInto (passes settings doclets) id,
      ((runAll settings doclets).1.doclet m.ancestor).Echoes
        ((runAll settings (reloaded settings doclets)).1.doclet m.ancestor)) :
    ((runAll settings doclets).1.doclet id).Echoes
      ((runAll settings (reloaded settings doclets)).1.doclet id) := by
  have hid := lt_length_of_documented hpart
  have hrun := h.execution
  have hrun' := h.execution_reloaded
  obtain ⟨-, hdeclares⟩ := hrun.declares _ (List.mem_map_of_mem hpart)
  obtain ⟨hfresh, hdeclares'⟩ := hrun'.declares _ (List.mem_map_of_mem hpart)
  have houtcome := hrun.replays.replayed _ (List.mem_map_of_mem hpart)
  have houtcome' := hrun'.replays.replayed _ (List.mem_map_of_mem hpart)
  dsimp only [arrival] at hdeclares hdeclares' hfresh houtcome houtcome'
  rw [doclet_start_reloaded hid] at hdeclares' hfresh
  rw [houtcome, houtcome']
  apply Doclet.Echoes.setPending
  -- every part has a reason of its own to stay as it was read back
  constructor
  case prose =>
    intro field
    apply Doclet.text_prose_replay
    · -- inherited prose counts as the doclet's own when it is read back
      rw [hdeclares'.prose]
      exact hfresh.source_prose
    · rw [hdeclares'.prose, Doclet.text_prose_renewed]
      have htext := congrArg (fun d : Doclet => (d.prose field).text) houtcome
      cases field <;> exact htext
    · exact fun m hm => (hread m hm).prose field
  case params =>
    apply Doclet.renewed_params_replay
    · rw [hdeclares.params]
      exact nodup_names_start h.loaded id
    · exact hdeclares'.paramNames.trans hdeclares.paramNames.symm
    · rw [hdeclares'.params, Doclet.params_renewed (h.name_ne_nil hid)]
      have hparams := congrArg Doclet.params houtcome
      exact congrArg (List.map Param.renewed) hparams
    · exact fun m hm => (hread m hm).params
  case returns =>
    apply Doclet.renewed_returns_replay
    · rw [hdeclares.returns, hdeclares'.returns]
      rcases Doclet.returns_renewed with hwritten | hloaded
      · left
        rw [hwritten]
        -- return values that were written are those of the end of the first run
        have hreturns := congrArg Doclet.returns houtcome
        exact congrArg (Option.map (List.map Return.renewed)) hreturns
      · -- and those that were not are what the first run began with
        exact Or.inr hloaded
    · exact fun m hm => (hread m hm).returns

/-- The second run ends with the documentation of the first one. -/
theorem echoes (h : Settled settings doclets) (hid : id < doclets.length) :
    ((runAll settings doclets).1.doclet id).Echoes
      ((runAll settings (reloaded settings doclets)).1.doclet id) := by
  have hrun := h.execution
  obtain ⟨rank, hrank⟩ := hrun.exists_rank
  -- whatever a doclet merges is of a lower rank
  induction hk : rank id using Nat.strong_induction_on generalizing id with
  | _ k ih =>
    subst hk
    by_cases hpart : id ∈ documented settings doclets
    · apply h.echoes_of_documented hpart
      intro m hm
      obtain ⟨harrived, -⟩ := hrun.replays.of_mem_mergesInto hm
      rw [List.map_map, List.mem_map] at harrived
      obtain ⟨x, hx, heq⟩ := harrived
      have hancestor : m.ancestor < doclets.length := heq ▸ lt_length_of_documented hx
      exact ih _ (hrank id m hm) hancestor rfl
    · obtain ⟨hsame, hsame'⟩ := h.doclet_of_not_documented hid hpart
      have hnames := h.name_ne_nil hid
      rw [hsame] at hnames
      rw [hsame, hsame']
      exact Doclet.echoes_renewed_self hnames

/-- The second run links nothing that is not linked already. -/
theorem see_eq (h : Settled settings doclets) (hid : id < doclets.length) :
    ((runAll settings (reloaded settings doclets)).1.doclet id).see =
      ((runAll settings doclets).1.doclet id).see := by
  by_cases hpart : id ∈ documented settings doclets
  · have hrecorded : recorded settings (reloaded settings doclets) id =
        recorded settings doclets id :=
      Doclet.field_of_course Doclet.pending (fun _ => rfl) (h.retraces.declared id hpart)
    have hbegins : ((Run.start (reloaded settings doclets)).doclet id).see =
        ((runAll settings doclets).1.doclet id).see := by
      rw [doclet_start_reloaded hid]
      rfl
    have hfirst := see_of_arriving h.fresh (arriving_eq_documented h.ended ▸ hpart)
    have hagain := h.retraces.documented.symm ▸ hpart
    have hsecond := see_of_arriving h.fresh_reloaded
      (arriving_eq_documented h.retraces.ended ▸ hagain)
    rw [hsecond, hbegins, hrecorded, hfirst, Doclet.linked_self]
  · obtain ⟨hsame, hsame'⟩ := h.doclet_of_not_documented hid hpart
    rw [hsame, hsame']
    rfl

/-- What is written after the second run is what was written after the first one. -/
theorem toMapping_eq (h : Settled settings doclets) (hid : id < doclets.length) :
    ((runAll settings (reloaded settings doclets)).1.doclet id).toMapping =
      ((runAll settings doclets).1.doclet id).toMapping := by
  obtain ⟨t, ht⟩ := h.placeholder
  have hlayers := (h.echoes hid).layers_eq (h.retraces.course id hid) (h.see_eq hid)
  have hraw : ((runAll settings (reloaded settings doclets)).1.doclet id).raw =
      ((runAll settings doclets).1.doclet id).toMapping := by
    rw [(revises_runAll ht h.isLoaded_reloaded id).raw, doclet_start_reloaded hid]
    rfl
  -- the same fields are laid over the mapping that they were laid over before
  rw [Doclet.toMapping_eq_layer, hraw, hlayers, Doclet.toMapping_eq_layer]
  apply Mapping.layer_layer
  rw [Doclet.map_fst_layers]
  exact Doclet.nodup_ownFields

theorem map_toMapping_eq (h : Settled settings doclets) :
    (runAll settings (reloaded settings doclets)).1.doclets.toList.map Doclet.toMapping =
      (runAll settings doclets).1.doclets.toList.map Doclet.toMapping := by
  rw [Run.toList_doclets, Run.toList_doclets, size_runAll h.fresh_reloaded, length_reloaded,
    size_runAll h.fresh, List.map_map, List.map_map]
  apply List.map_congr_left
  intro id hid
  exact h.toMapping_eq (List.mem_range.mp hid)

end Settled

/-- Resolving what was resolved changes nothing: what is written after a resolution without a fault
is read back, resolved again without a fault, and written as it was. -/
theorem resolve_written {config : Config} {raws : List Mapping} {t : Text}
    {report report' : Option Report}
    (hplaceholder : config.get "placeholder_description" (.text "undocumented") = .text t)
    (hread : (Dump.read raws).1 = .ok doclets) (hnames : ∀ d ∈ doclets, [] ∉ d.paramNames)
    (hfault : (resolve config doclets report).fault = none) :
    ∃ doclets',
      (Dump.read ((resolve config doclets report).doclets.map Doclet.toMapping)).1 =
        .ok doclets' ∧
      (resolve config doclets' report').fault = none ∧
      (resolve config doclets' report').doclets.map Doclet.toMapping =
        (resolve config doclets report).doclets.map Doclet.toMapping := by
  obtain ⟨settings, hsettings, hended⟩ := settings_of_resolve hfault
  have h : Settled settings doclets :=
    ⟨Dump.isLoaded_of_read hread, hnames,
      ⟨t, (placeholder_of_ofConfig hsettings).trans hplaceholder⟩, hended⟩
  have hdoclets : ∀ (doclets : List Doclet) (report : Option Report),
      (resolve config doclets report).doclets = (runAll settings doclets).1.doclets.toList := by
    intro doclets report
    rw [doclets_resolve, hsettings]
  rw [hdoclets doclets report]
  refine ⟨reloaded settings doclets, h.read_written, ?_, ?_⟩
  · unfold resolve
    rw [hsettings]
    exact h.retraces.ended
  · rw [hdoclets]
    exact h.map_toMapping_eq

/-- Two doclets as they are read. The first one inherits from the second one, which has a
description and a parameter of another name, and from one that is missing. -/
def halfwayDump : List Mapping := [
  [(.text "longname", .text "D"),
    (.text "meta", .map
      [(.text "code", .map [(.text "paramnames", Value.ofTexts ["x"])])]),
    (.text "tags", .list
      [.map [(.text "title", .text "inheritdoc"), (.text "value", .text "A")],
        .map [(.text "title", .text "inheritdoc"), (.text "value", .text "M")]])],
  [(.text "longname", .text "A"), (.text "description", .text "of A"),
    (.text "params", .list [named "y"])]]

/-- The doclets that are read. -/
def halfway : List Doclet := halfwayDump.filterMap fun raw => (Doclet.ofMapping raw).toOption

theorem read_halfway : (Dump.read halfwayDump).1 = .ok halfway :=
  Dump.read_filterMap (by decide +kernel)

theorem paramNames_halfway : ∀ d ∈ halfway, [] ∉ d.paramNames := by
  decide +kernel

theorem values_halfway : ((resolve Config.defaults halfway none).fault,
    (resolve Config.defaults halfway none).doclets.map fun d =>
      (d.description.text, d.params.map Param.synthesized, d.pending.map PendingAncestor.identity,
        d.see)) =
    (none, [(some (Text.ofString "of A"), [true], [Text.ofString "M"], [Text.ofString "A", "M"]),
      (some (Text.ofString "of A"), [false], [], [])]) := by
  cbv

/-- The first doclet ends with an inherited description, a placeholder and an ancestor that is still
missing; all of this is read back, inherited again, and written once more. -/
theorem resolve_written_halfway :
    Config.defaults.get "placeholder_description" (.text "undocumented") = .text "undocumented" ∧
      (∀ d ∈ halfway, [] ∉ d.paramNames) ∧
      (resolve Config.defaults halfway none).doclets.map (fun d =>
        (d.description.text, d.params.map Param.synthesized, d.pending.map PendingAncestor.identity,
          d.see)) =
        [(some (Text.ofString "of A"), [true], [Text.ofString "M"], [Text.ofString "A", "M"]),
          (some (Text.ofString "of A"), [false], [], [])] ∧
      ∃ doclets',
        (Dump.read ((resolve Config.defaults halfway none).doclets.map Doclet.toMapping)).1 =
          .ok doclets' ∧
        (resolve Config.defaults doclets' none).fault = none ∧
        (resolve Config.defaults doclets' none).doclets.map Doclet.toMapping =
          (resolve Config.defaults halfway none).doclets.map Doclet.toMapping := by
  obtain ⟨hfault, hwritten⟩ := Prod.mk.inj values_halfway
  exact ⟨rfl, paramNames_halfway, hwritten,
    resolve_written rfl read_halfway paramNames_halfway hfault⟩

end Resolution

end DocLineage
