import DocLineage.Proofs.Consistency
import DocLineage.Proofs.SideBySide
import DocLineage.Proofs.TagEffects

/-!
# What an override comes to

An override is put on a list by the tags of a doclet and taken off it when the doclet arrives; the
enclosing class is looked up in the tables, in which doclets move about while they are completed.
Here it is said without either: whether a doclet is expanded depends on its own code and its own
tags, and whether the enclosing class is found on the names of the doclets before it. What the
doclet then declares follows from what its tags say and from what the class extends.

## Main definitions

* `Resolution.arriving` — the places of the doclets that arrive before the run is over
* `Resolution.isExpanded` — the override of a doclet is expanded when it arrives
* `Resolution.enclosers` — the places before a doclet at which its enclosing class may be found
* `Resolution.Overridden` — what becomes of a doclet that may have an override

## Main results

* `Resolution.mem_enclosers_of_foundClass?` — what is found is one of these places, and it is found
  whenever there is one
* `Resolution.overridden` — what becomes of every doclet that arrives
* `Resolution.dropped_runAll` — the overrides that are dropped
* `Config.Titled.overrides_expanded` — all of it, for the settings of a configuration
-/

namespace DocLineage

/-! ### The tags that ask for an override -/

/-- The dictionary accepts an override from a tag that asks for one. -/
theorem Tag.judge_eq_override_iff {titles : Titles} (h : titles.Distinct) (tag : Tag) :
    (InheritTag.dictionary titles).judge tag = .accepted .override ↔
      tag.overrides titles = true := by
  rw [InheritTag.judge_dictionary h, Tag.overrides]
  cases tag.reading titles with
  | ancestor identity mode => cases mode <;> simp [TagReading.verdict]
  | _ => simp [TagReading.verdict]

namespace Doclet

variable {settings : Settings} {separators : Separators} {d : Doclet} {x : DocletId}
  {superclasses : List Text}

/-- A doclet overrides something if its code has an identity and one of its tags says so. -/
theorem isSome_overriding_iff (h : settings.titles.Distinct) :
    (d.overriding settings d.tags).isSome = true ↔
      d.codeId.getD [] ≠ [] ∧ ∃ tag ∈ d.tags, tag.overrides settings.titles = true := by
  unfold overriding
  split
  · next hcode => simp [hcode]
  · next hcode => simp [hcode]
  · next code hne hcode =>
    have hne : code ≠ [] := hne
    simp [hcode, hne, Tag.judge_eq_override_iff h]

/-- What the tags of a doclet declare. -/
theorem pending_applyTags (h : settings.titles.Distinct) (d : Doclet) :
    (d.applyTags settings).pending = d.pending ++
        PendingAncestor.ranked d.declared (d.tags.filterMap (Tag.entry? settings.titles)) ∧
      (d.applyTags settings).declared =
        d.declared + (d.tags.filterMap (Tag.entry? settings.titles)).length := by
  -- the tags of a doclet do to it what they do in a run of which it is all
  have hself : ((Run.start [d]).applyTags settings 0).doclet 0 = d.applyTags settings :=
    (Run.changes_applyTags (r := Run.start [d]) settings 0 rfl).doclet_self Nat.zero_lt_one
  have happlied : Run.TagsApplied settings.titles 0 d.tags (Run.start [d])
      ((Run.start [d]).applyTags settings 0) :=
    Run.tagsApplied_foldl_applyTag h Nat.zero_lt_one d.tags
  rw [← hself]
  exact ⟨happlied.pending, happlied.declared⟩

/-- The tags of a doclet change neither its name nor its scope. -/
theorem name_applyTags (settings : Settings) (d : Doclet) :
    (d.applyTags settings).name = d.name ∧ (d.applyTags settings).scope = d.scope := by
  have hself : ((Run.start [d]).applyTags settings 0).doclet 0 = d.applyTags settings :=
    (Run.changes_applyTags (r := Run.start [d]) settings 0 rfl).doclet_self Nat.zero_lt_one
  have hdeclares : Run.Declares 0 (Run.start [d]) ((Run.start [d]).applyTags settings 0) :=
    Run.declares_applyTags
  obtain ⟨entries, hentries⟩ := hdeclares.doclet_self
  rw [← hself, hentries.eq]
  exact ⟨rfl, rfl⟩

/-- The member of every superclass is declared in order, and the enclosing class stays. -/
theorem foldl_declareMember (settings : Settings) (separator : Text) (superclasses : List Text)
    (d : Doclet) :
    (superclasses.foldl (declareMember settings separator) d).pending = d.pending ++
        PendingAncestor.ranked d.declared
          (superclasses.map fun superclass => (superclass ++ separator ++ d.name, .full)) ∧
      (superclasses.foldl (declareMember settings separator) d).enclosing = d.enclosing := by
  induction superclasses generalizing d with
  | nil => exact ⟨(List.append_nil _).symm, rfl⟩
  | cons superclass superclasses ih =>
    have hone : ∀ (d : Doclet) (target : Text),
        ((d.declare target .full).addLink settings.addsSeeLinks target).pending =
            d.pending ++ [⟨target, .full, d.declared⟩] ∧
          ((d.declare target .full).addLink settings.addsSeeLinks target).declared =
            d.declared + 1 ∧
          ((d.declare target .full).addLink settings.addsSeeLinks target).name = d.name ∧
          ((d.declare target .full).addLink settings.addsSeeLinks target).enclosing =
            d.enclosing := by
      intro d target
      unfold addLink
      split <;> exact ⟨rfl, rfl, rfl, rfl⟩
    obtain ⟨hpending, hdeclared, hname, henclosing⟩ := hone d (superclass ++ separator ++ d.name)
    obtain ⟨hrest, hstays⟩ := ih (d.declareMember settings separator superclass)
    rw [List.foldl_cons, hrest, hstays, declareMember, hpending, hdeclared, hname, henclosing,
      List.append_assoc]
    exact ⟨rfl, rfl⟩

/-- A doclet without an override, or without an enclosing class, declares what its tags say. -/
theorem record_of_none {found : Option (DocletId × List Text)}
    (h : d.overriding settings d.tags = none ∨ found = none) :
    d.record settings found = (d.applyTags settings, none) := by
  unfold record
  rcases h with h | h
  · rw [h]
  · rw [h]
    cases d.overriding settings d.tags <;> rfl

/-- A doclet with an override and an enclosing class is expanded after its tags are applied. -/
theorem record_of_overriding (h : (d.overriding settings d.tags).isSome = true) :
    d.record settings (some (x, superclasses)) =
      (d.applyTags settings).expand settings x superclasses := by
  obtain ⟨code, hcode⟩ := Option.isSome_iff_exists.mp h
  unfold record
  rw [hcode]

/-- Where members can be joined to their classes, an expansion declares the members of what the
enclosing class extends. -/
theorem expand_of_joined (x : DocletId) (superclasses : List Text) {separator : Text}
    (hseparators : settings.separators = .ok separators)
    (hseparator : (separators.of d.scope).toText = .ok separator) :
    (d.expand settings x superclasses).2 = none ∧
      (d.expand settings x superclasses).1.enclosing = some x ∧
      (d.expand settings x superclasses).1.pending = d.pending ++
        PendingAncestor.ranked d.declared
          (superclasses.map fun superclass => (superclass ++ separator ++ d.name, .full)) := by
  have hexpand : d.expand settings x superclasses =
      (superclasses.foldl (declareMember settings separator) { d with enclosing := some x },
        none) := by
    unfold expand
    rw [hseparators]
    dsimp only
    rw [hseparator]
    cases superclasses <;> rfl
  obtain ⟨hpending, henclosing⟩ :=
    foldl_declareMember settings separator superclasses { d with enclosing := some x }
  rw [hexpand]
  exact ⟨rfl, henclosing, hpending⟩

/-- Where they cannot, it is a fault if there is a class to join a member to. -/
theorem expand_of_unjoined (x : DocletId) (superclasses : List Text) {fault : Fault}
    (hseparators : settings.separators = .ok separators)
    (hseparator : (separators.of d.scope).toText = .error fault) :
    (d.expand settings x superclasses).2 =
        (if superclasses = [] then none else some fault) ∧
      (d.expand settings x superclasses).1.enclosing = some x ∧
      (d.expand settings x superclasses).1.pending = d.pending := by
  unfold expand
  rw [hseparators]
  dsimp only
  rw [hseparator]
  cases superclasses <;> exact ⟨rfl, rfl, rfl⟩

end Doclet

/-- No run changes what a class extends. -/
theorem Execution.superclasses {settings : Settings} {r₀ r : Run} {as : List Arrival} {a : Arrival}
    {ps : List Pass} {ws : List Wake} {busy : Option DocletId}
    (h : Execution settings r₀ as ps r ws busy) (ha : a ∈ as) :
    (r.doclet a.id).superclasses = (r₀.doclet a.id).superclasses := by
  have hmerged : ∀ (d ancestor : Doclet) (mode : InheritMode) (placeholder : Value) (rank : Int),
      (d.inherit ancestor mode placeholder rank).superclasses = d.superclasses :=
    fun _ _ mode _ _ => by cases mode <;> rfl
  have hdeclared : a.declared.superclasses = (r₀.doclet a.id).superclasses := by
    rw [(h.declares a ha).2.eq]
  rw [← hdeclared, h.replays.replayed a ha]
  exact Doclet.replay_preserves Doclet.superclasses hmerged

/-! ### The enclosing class -/

namespace Resolution

/-- The places of the doclets that arrive: of those that take part, up to the end of the run. -/
def arriving (settings : Settings) (doclets : List Doclet) : List DocletId :=
  (documented settings doclets).filter fun id =>
    ((Run.start doclets).feedAll settings (List.range id)).2.isNone

/-- The override of the doclet at a place is expanded when the doclet arrives. -/
def isExpanded (settings : Settings) (doclets : List Doclet) (id : DocletId) : Bool :=
  ((runBefore settings doclets id).applyTags settings id).wantsExpansion id

/-- The places, before that of a doclet, of the doclets that go by the name of its enclosing class.
An empty name is no name. -/
def enclosers (settings : Settings) (doclets : List Doclet) (id : DocletId) : List DocletId :=
  (documented settings doclets).filter fun x =>
    x < id ∧ ((Run.start doclets).doclet x).longname ≠ [] ∧
      ((Run.start doclets).doclet id).memberof = some ((Run.start doclets).doclet x).longname

/-- What becomes of the doclet at a place, which may have an override, when it arrives. -/
structure Overridden (titles : Titles) (separators : Separators) (settings : Settings)
    (doclets : List Doclet) (id : DocletId) : Prop where
  /-- A doclet is expanded if its own code has an identity and one of its own tags asks for it. -/
  expanded : isExpanded settings doclets id = true ↔
    ((Run.start doclets).doclet id).codeId.getD [] ≠ [] ∧
      ∃ tag ∈ ((Run.start doclets).doclet id).tags, tag.overrides titles = true
  /-- One that is not expanded, or whose enclosing class has not come before it, declares what its
  tags say. -/
  own : isExpanded settings doclets id = false ∨ enclosers settings doclets id = [] →
    ((Run.start doclets).feedAll settings (List.range (id + 1))).2 = none ∧
      recorded settings doclets id = PendingAncestor.ranked 0
        (((Run.start doclets).doclet id).tags.filterMap (Tag.entry? titles))
  /-- Otherwise the member of every class that the enclosing class extends is declared after that,
  in order. Where members cannot be joined to their classes this is a fault. -/
  members : isExpanded settings doclets id = true → enclosers settings doclets id ≠ [] →
    ∃ x ∈ enclosers settings doclets id, (declared settings doclets id).enclosing = some x ∧
      match (separators.of ((Run.start doclets).doclet id).scope).toText with
      | .ok separator =>
        ((Run.start doclets).feedAll settings (List.range (id + 1))).2 = none ∧
          recorded settings doclets id = PendingAncestor.ranked 0
            (((Run.start doclets).doclet id).tags.filterMap (Tag.entry? titles) ++
              ((Run.start doclets).doclet x).superclasses.map fun superclass =>
                (superclass ++ separator ++ ((Run.start doclets).doclet id).name, .full))
      | .error fault =>
        ((Run.start doclets).feedAll settings (List.range (id + 1))).2 =
            (if ((Run.start doclets).doclet x).superclasses = [] then none else some fault) ∧
          recorded settings doclets id = PendingAncestor.ranked 0
            (((Run.start doclets).doclet id).tags.filterMap (Tag.entry? titles))

variable {settings : Settings} {separators : Separators} {doclets : List Doclet}
  {id x : DocletId}

theorem mem_arriving : id ∈ arriving settings doclets ↔ id ∈ documented settings doclets ∧
    ((Run.start doclets).feedAll settings (List.range id)).2 = none := by
  rw [arriving, List.mem_filter, Option.isNone_iff_eq_none]

theorem mem_documented : id ∈ documented settings doclets ↔
    id < doclets.length ∧ Run.isSkipped settings ((Run.start doclets).doclet id) = false := by
  rw [documented, List.mem_filter, List.mem_range, takesPart, Bool.not_eq_true']

/-- Without a fault whoever takes part arrives. -/
theorem arriving_eq_documented (h : (runAll settings doclets).2 = none) :
    arriving settings doclets = documented settings doclets := by
  apply List.filter_eq_self.mpr
  intro id hid
  rw [Option.isNone_iff_eq_none]
  exact snd_feedAll_range_of_le (Nat.le_of_lt (mem_documented.mp hid).1) h

theorem mem_enclosers : x ∈ enclosers settings doclets id ↔
    x ∈ documented settings doclets ∧ x < id ∧
      ((Run.start doclets).doclet x).longname ≠ [] ∧
      ((Run.start doclets).doclet id).memberof =
        some ((Run.start doclets).doclet x).longname := by
  rw [enclosers, List.mem_filter, decide_eq_true_eq]

/-- When a doclet is about to arrive the run is the end of an execution, in which those that take
part have arrived before it. -/
theorem execution_before (hfresh : ∀ d ∈ doclets, d.IsFresh)
    (hid : id ∈ arriving settings doclets) :
    Execution settings (Run.start doclets)
      (((List.range id).filter (takesPart settings doclets)).map (arrival settings doclets))
      (((List.range id).filter (takesPart settings doclets)).flatMap (passesAt settings doclets))
      (runBefore settings doclets id) [] none := by
  obtain ⟨hdocumented, hnone⟩ := mem_arriving.mp hid
  exact execution_upTo hfresh (Nat.le_of_lt (mem_documented.mp hdocumented).1) hnone

/-- Whoever has arrived before a doclet takes part and comes before it. -/
theorem mem_arrivals_upTo (hid : id ∈ arriving settings doclets) :
    x ∈ (((List.range id).filter (takesPart settings doclets)).map
        (arrival settings doclets)).map Arrival.id ↔
      x ∈ documented settings doclets ∧ x < id := by
  have hlength := (mem_documented.mp (mem_arriving.mp hid).1).1
  have hids : (((List.range id).filter (takesPart settings doclets)).map
      (arrival settings doclets)).map Arrival.id =
      (List.range id).filter (takesPart settings doclets) := by
    rw [List.map_map]
    exact List.map_id _
  rw [hids, documented, List.mem_filter, List.mem_filter, List.mem_range, List.mem_range]
  constructor
  · rintro ⟨hlt, htakes⟩
    exact ⟨⟨hlt.trans hlength, htakes⟩, hlt⟩
  · rintro ⟨⟨-, htakes⟩, hlt⟩
    exact ⟨hlt, htakes⟩

/-- A doclet finds its enclosing class among those that come before it and take part, whether they
are complete or not, and it finds one if there is any. -/
theorem mem_enclosers_of_foundClass? (hfresh : ∀ d ∈ doclets, d.IsFresh)
    (hid : id ∈ arriving settings doclets) :
    match (runBefore settings doclets id).foundClass? id with
    | none => enclosers settings doclets id = []
    | some (x, superclasses) => x ∈ enclosers settings doclets id ∧
        superclasses = ((Run.start doclets).doclet x).superclasses := by
  have hrun := execution_before hfresh hid
  have hconsistent := hrun.linked.toConsistent
  have hself : (runBefore settings doclets id).doclet id = (Run.start doclets).doclet id :=
    hrun.doclet_of_not_arrived (not_mem_arrivals_upTo settings doclets id)
  -- what has arrived goes by the name that it had before, and extends what it extended
  have hsame : ∀ x ∈ documented settings doclets, x < id →
      ((runBefore settings doclets id).doclet x).longname =
          ((Run.start doclets).doclet x).longname ∧
        ((runBefore settings doclets id).doclet x).superclasses =
          ((Run.start doclets).doclet x).superclasses := by
    intro x hx hlt
    obtain ⟨a, ha, rfl⟩ := List.mem_map.mp ((mem_arrivals_upTo hid).mpr ⟨hx, hlt⟩)
    refine ⟨?_, hrun.superclasses ha⟩
    rw [hrun.linked.longname a ha, (hrun.declares a ha).2.longname]
  unfold Run.foundClass?
  cases hclass : (runBefore settings doclets id).enclosingClass? id with
  | none =>
    rw [Option.map_none, List.eq_nil_iff_forall_not_mem]
    intro x hx
    obtain ⟨hdocumented, hlt, hname, hmemberof⟩ := mem_enclosers.mp hx
    obtain ⟨hlongname, -⟩ := hsame x hdocumented hlt
    have hfound := hconsistent.found x ((mem_arrivals_upTo hid).mpr ⟨hdocumented, hlt⟩)
      (by rw [hlongname]; exact hname)
    rw [hlongname] at hfound
    unfold Run.enclosingClass? at hclass
    rw [hself, hmemberof] at hclass
    split at hclass
    · next heq => cases heq
    · next heq => exact hname (Option.some.inj heq)
    · next heq =>
      rw [← Option.some.inj heq] at hclass
      rw [hclass] at hfound
      cases hfound
  | some x =>
    rw [Option.map_some]
    unfold Run.enclosingClass? at hclass
    rw [hself] at hclass
    split at hclass
    · cases hclass
    · cases hclass
    · next name _ hmemberof =>
      obtain ⟨harrived, hlongname, hname⟩ := hconsistent.named name x hclass
      obtain ⟨hdocumented, hlt⟩ := (mem_arrivals_upTo hid).mp harrived
      obtain ⟨hsameName, hsameClasses⟩ := hsame x hdocumented hlt
      rw [hsameName] at hlongname
      refine ⟨mem_enclosers.mpr ⟨hdocumented, hlt, ?_, ?_⟩, hsameClasses⟩
      · rw [hlongname]
        exact hname
      · rw [hlongname]
        exact hmemberof

/-! ### What a doclet declares -/

/-- A fault of an arrival is one of its first half. -/
theorem snd_feed_eq (settings : Settings) (r : Run) (id : DocletId) :
    (r.feed settings id).2 = (r.declareAncestors settings id).2 := by
  rw [Run.feed_eq]
  cases r.declareAncestors settings id with
  | mk r' fault => cases fault <;> rfl

/-- An arrival is what the doclet records, as it was when the run began. -/
theorem record_of_arriving (hfresh : ∀ d ∈ doclets, d.IsFresh)
    (hid : id ∈ arriving settings doclets) :
    isExpanded settings doclets id = (((Run.start doclets).doclet id).overriding settings
        ((Run.start doclets).doclet id).tags).isSome ∧
      declared settings doclets id = (((Run.start doclets).doclet id).record settings
        ((runBefore settings doclets id).foundClass? id)).1 ∧
      ((Run.start doclets).feedAll settings (List.range (id + 1))).2 =
        (((Run.start doclets).doclet id).record settings
          ((runBefore settings doclets id).foundClass? id)).2 := by
  have hrun := execution_before hfresh hid
  obtain ⟨hdocumented, hnone⟩ := mem_arriving.mp hid
  obtain ⟨hlength, hskip⟩ := mem_documented.mp hdocumented
  have hself : (runBefore settings doclets id).doclet id = (Run.start doclets).doclet id :=
    hrun.doclet_of_not_arrived (not_mem_arrivals_upTo settings doclets id)
  have hsize : id < (runBefore settings doclets id).doclets.size := by
    rw [hrun.size_eq, Run.start, List.size_toArray]
    exact hlength
  obtain ⟨hchanges, hfault⟩ :=
    Run.changes_declareAncestors settings hsize hrun.linked.overrides
  refine ⟨?_, ?_, ?_⟩
  · rw [isExpanded, Run.wantsExpansion_applyTags settings id hrun.linked.overrides, hself]
  · rw [declared, hchanges.doclet_self hsize, hself]
  · rw [feedAll_range_succ hnone, hself, hskip]
    rw [if_neg Bool.false_ne_true, snd_feed_eq, hfault, hself]

/-- What becomes of a doclet that arrives, in a run whose titles differ. -/
theorem overridden (hfresh : ∀ d ∈ doclets, d.IsFresh) (htitles : settings.titles.Distinct)
    (hseparators : settings.separators = .ok separators) (hid : id ∈ arriving settings doclets) :
    Overridden settings.titles separators settings doclets id := by
  obtain ⟨hexpanded, hdeclared, hended⟩ := record_of_arriving hfresh hid
  have hfound := mem_enclosers_of_foundClass? hfresh hid
  have hfreshOwn : ((Run.start doclets).doclet id).IsFresh := by
    have hlength := (mem_documented.mp (mem_arriving.mp hid).1).1
    rw [doclet_start hlength]
    exact hfresh _ (List.getElem_mem hlength)
  -- what the tags declare is ranked from zero on
  obtain ⟨hpending, hcount⟩ := Doclet.pending_applyTags htitles ((Run.start doclets).doclet id)
  rw [hfreshOwn.pending, hfreshOwn.declared, List.nil_append] at hpending
  rw [hfreshOwn.declared] at hcount
  constructor
  case expanded =>
    rw [hexpanded]
    exact Doclet.isSome_overriding_iff htitles
  case own =>
    intro hnone
    have hrecord : ((Run.start doclets).doclet id).record settings
        ((runBefore settings doclets id).foundClass? id) =
        (((Run.start doclets).doclet id).applyTags settings, none) := by
      apply Doclet.record_of_none
      rcases hnone with hnot | hnil
      · rw [hexpanded, Option.isSome_eq_false_iff, Option.isNone_iff_eq_none] at hnot
        exact Or.inl hnot
      · right
        cases hclass : (runBefore settings doclets id).foundClass? id with
        | none => rfl
        | some found =>
          rw [hclass, hnil] at hfound
          cases hfound.1
    rw [hended, recorded, hdeclared, hrecord]
    exact ⟨rfl, hpending⟩
  case members =>
    intro hwants hne
    rw [hexpanded] at hwants
    cases hclass : (runBefore settings doclets id).foundClass? id with
    | none =>
      rw [hclass] at hfound
      exact absurd hfound hne
    | some found =>
      obtain ⟨x, superclasses⟩ := found
      rw [hclass] at hfound hdeclared hended
      obtain ⟨hx, rfl⟩ := hfound
      obtain ⟨hname, hscope⟩ := Doclet.name_applyTags settings ((Run.start doclets).doclet id)
      rw [Doclet.record_of_overriding hwants] at hdeclared hended
      refine ⟨x, hx, ?_⟩
      rw [hended, recorded, hdeclared]
      cases hseparator : (separators.of ((Run.start doclets).doclet id).scope).toText with
      | ok separator =>
        obtain ⟨hfault, henclosing, hmembers⟩ := Doclet.expand_of_joined x
          ((Run.start doclets).doclet x).superclasses hseparators (hscope ▸ hseparator)
        rw [hpending, hcount, ← PendingAncestor.ranked_append, hname] at hmembers
        exact ⟨henclosing, hfault, hmembers⟩
      | error fault =>
        obtain ⟨hfault, henclosing, hmembers⟩ := Doclet.expand_of_unjoined x
          ((Run.start doclets).doclet x).superclasses hseparators (hscope ▸ hseparator)
        exact ⟨henclosing, hfault, hmembers.trans hpending⟩

/-! ### What is dropped, and what ends a run -/

theorem dropped_feed (settings : Settings) (r : Run) (id : DocletId) :
    (r.feed settings id).1.dropped = (r.declareAncestors settings id).1.dropped := by
  rw [Run.feed_eq]
  cases r.declareAncestors settings id with
  | mk r' fault =>
    cases fault with
    | some fault => rfl
    | none =>
      have hrecords : (r'.process settings.placeholder id).records = r'.records := by
        unfold Run.process
        dsimp only
        rw [Run.records_cascade, Run.records_advance]
      exact congrArg Prod.fst hrecords

/-- The override of a doclet is dropped when it is expanded without an enclosing class. -/
theorem droppedOf_of_arriving (hfresh : ∀ d ∈ doclets, d.IsFresh)
    (hid : id ∈ arriving settings doclets) :
    (runBefore settings doclets id).droppedOf settings id =
      if isExpanded settings doclets id && (enclosers settings doclets id).isEmpty then
        [⟨((Run.start doclets).doclet id).memberName, ((Run.start doclets).doclet id).memberof⟩]
      else [] := by
  have hself : (runBefore settings doclets id).doclet id = (Run.start doclets).doclet id :=
    (execution_before hfresh hid).doclet_of_not_arrived (not_mem_arrivals_upTo settings doclets id)
  have hfound := mem_enclosers_of_foundClass? hfresh hid
  rw [(record_of_arriving hfresh hid).1, Run.droppedOf, hself]
  cases ((Run.start doclets).doclet id).overriding settings
    ((Run.start doclets).doclet id).tags with
  | none => rfl
  | some code =>
    cases hclass : (runBefore settings doclets id).foundClass? id with
    | none =>
      rw [hclass] at hfound
      rw [hfound]
      rfl
    | some found =>
      rw [hclass] at hfound
      have hne : (enclosers settings doclets id).isEmpty = false := by
        rw [List.isEmpty_eq_false_iff]
        exact List.ne_nil_of_mem hfound.1
      rw [hne]
      rfl

/-- After a fault nothing arrives. -/
theorem feedAll_range_succ_of_fault {n : Nat} {fault : Fault}
    (h : ((Run.start doclets).feedAll settings (List.range n)).2 = some fault) :
    (Run.start doclets).feedAll settings (List.range (n + 1)) =
      (Run.start doclets).feedAll settings (List.range n) := by
  have hbefore : (Run.start doclets).feedAll settings (List.range n) =
      (runBefore settings doclets n, some fault) := Prod.ext rfl h
  rw [List.range_succ, feedAll_append, hbefore]

/-- A run goes on with the doclet at the next place if that arrives, and else stays as it is. -/
theorem runBefore_succ (settings : Settings) (hfresh : ∀ d ∈ doclets, d.IsFresh) {n : Nat}
    (hn : n < doclets.length) :
    runBefore settings doclets (n + 1) =
      if n ∈ arriving settings doclets then ((runBefore settings doclets n).feed settings n).1
      else runBefore settings doclets n := by
  cases hfault : ((Run.start doclets).feedAll settings (List.range n)).2 with
  | some fault =>
    have hnot : n ∉ arriving settings doclets := by
      rw [mem_arriving, hfault]
      exact fun h => nomatch h.2
    rw [if_neg hnot, runBefore, feedAll_range_succ_of_fault hfault, runBefore]
  | none =>
    have hrun := execution_upTo hfresh (Nat.le_of_lt hn) hfault
    have hself : (runBefore settings doclets n).doclet n = (Run.start doclets).doclet n :=
      hrun.doclet_of_not_arrived (not_mem_arrivals_upTo settings doclets n)
    have harrives : n ∈ arriving settings doclets ↔
        Run.isSkipped settings ((Run.start doclets).doclet n) = false := by
      rw [mem_arriving, mem_documented]
      exact ⟨fun h => h.1.2, fun hskip => ⟨⟨hn, hskip⟩, hfault⟩⟩
    rw [runBefore, feedAll_range_succ hfault, hself]
    by_cases hskip : Run.isSkipped settings ((Run.start doclets).doclet n) = true
    · have hnot : n ∉ arriving settings doclets := by
        rw [harrives, hskip]
        exact Bool.noConfusion
      rw [if_pos hskip, if_neg hnot]
    · rw [if_neg hskip, if_pos (harrives.mpr (Bool.eq_false_iff.mpr hskip))]

/-- Up to every place, what is dropped are the overrides that are expanded without an enclosing
class, each of them once. -/
theorem dropped_runBefore (settings : Settings) (hfresh : ∀ d ∈ doclets, d.IsFresh) {n : Nat}
    (hn : n ≤ doclets.length) :
    (runBefore settings doclets n).dropped =
      ((List.range n).filter fun id => id ∈ arriving settings doclets ∧
          isExpanded settings doclets id = true ∧ enclosers settings doclets id = []).map fun id =>
        ⟨((Run.start doclets).doclet id).memberName,
          ((Run.start doclets).doclet id).memberof⟩ := by
  induction n with
  | zero => rfl
  | succ n ih =>
    have hrest := ih (Nat.le_of_succ_le hn)
    rw [List.range_succ, List.filter_append, List.map_append, ← hrest, List.filter_singleton]
    rw [runBefore_succ settings hfresh hn]
    by_cases harrives : n ∈ arriving settings doclets
    · have hrun := execution_before hfresh harrives
      have hsize : n < (runBefore settings doclets n).doclets.size := by
        rw [hrun.size_eq, Run.start, List.size_toArray]
        exact hn
      rw [if_pos harrives, dropped_feed,
        (Run.changes_declareAncestors settings hsize hrun.linked.overrides).1.dropped,
        droppedOf_of_arriving hfresh harrives]
      congr 1
      by_cases hwants : isExpanded settings doclets n = true <;>
        by_cases hnil : enclosers settings doclets n = [] <;> simp [harrives, hwants, hnil]
    · -- the doclet takes no part, or the run was over before it
      simp [harrives]

/-- A run is ended before its time only by a doclet that has arrived. -/
theorem exists_of_fault {n : Nat} {fault : Fault} (hfresh : ∀ d ∈ doclets, d.IsFresh)
    (hn : n ≤ doclets.length)
    (h : ((Run.start doclets).feedAll settings (List.range n)).2 = some fault) :
    ∃ x ∈ arriving settings doclets, x < n ∧
      ((Run.start doclets).feedAll settings (List.range (x + 1))).2 = some fault := by
  induction n with
  | zero => cases h
  | succ n ih =>
    cases hbefore : ((Run.start doclets).feedAll settings (List.range n)).2 with
    | some fault' =>
      rw [feedAll_range_succ_of_fault hbefore] at h
      obtain ⟨x, hx, hlt, hfault⟩ := ih (Nat.le_of_succ_le hn) h
      exact ⟨x, hx, Nat.lt_succ_of_lt hlt, hfault⟩
    | none =>
      have hrun := execution_upTo hfresh (Nat.le_of_succ_le hn) hbefore
      have hself : (runBefore settings doclets n).doclet n = (Run.start doclets).doclet n :=
        hrun.doclet_of_not_arrived (not_mem_arrivals_upTo settings doclets n)
      refine ⟨n, mem_arriving.mpr ⟨mem_documented.mpr ⟨hn, ?_⟩, hbefore⟩, Nat.lt_succ_self n, h⟩
      by_contra hskip
      rw [feedAll_range_succ hbefore, hself, if_pos (by simpa using hskip)] at h
      cases h

/-- A doclet that takes part arrives, unless an earlier one overrides a member of a class to which
it cannot be joined. -/
theorem mem_arriving_or_exists_unjoined (hfresh : ∀ d ∈ doclets, d.IsFresh)
    (htitles : settings.titles.Distinct) (hseparators : settings.separators = .ok separators)
    (hid : id ∈ documented settings doclets) : id ∈ arriving settings doclets ∨
      ∃ x ∈ arriving settings doclets, x < id ∧ isExpanded settings doclets x = true ∧
        ∃ fault, (separators.of ((Run.start doclets).doclet x).scope).toText = .error fault := by
  cases hfault : ((Run.start doclets).feedAll settings (List.range id)).2 with
  | none => exact Or.inl (mem_arriving.mpr ⟨hid, hfault⟩)
  | some fault =>
    obtain ⟨x, hx, hlt, hended⟩ :=
      exists_of_fault hfresh (Nat.le_of_lt (mem_documented.mp hid).1) hfault
    have hoverridden := overridden hfresh htitles hseparators hx
    have hgoesOn : ¬(isExpanded settings doclets x = false ∨
        enclosers settings doclets x = []) := by
      intro hown
      rw [(hoverridden.own hown).1] at hended
      cases hended
    rw [not_or, Bool.not_eq_false] at hgoesOn
    obtain ⟨y, -, -, hmembers⟩ := hoverridden.members hgoesOn.1 hgoesOn.2
    refine Or.inr ⟨x, hx, hlt, hgoesOn.1, ?_⟩
    cases hseparator : (separators.of ((Run.start doclets).doclet x).scope).toText with
    | error fault' => exact ⟨fault', rfl⟩
    | ok separator =>
      rw [hseparator] at hmembers
      rw [hmembers.1] at hended
      cases hended

end Resolution

/-! ### All overrides of a run -/

theorem Config.separators_eq {config : Config} {byScope : Mapping}
    (h : (config.get "scope_punctuation" (.map [])).entries? = some byScope) :
    config.separators =
      .ok ⟨byScope, config.get "default_scope_punctuation" (.text "#")⟩ := by
  rw [Config.separators, Config.asMapping, h]
  rfl

open Resolution in
/-- A configuration with different titles and a mapping of separators is read, and with its settings
the overrides of all doclets come to what they should, wherever the doclets stand and whatever code
they share: whoever arrives is expanded as its own tags ask for, and declares the members of what
its enclosing class extends; what is dropped are the overrides without an enclosing class, each of
them once. Whoever takes part arrives, unless a separator that cannot be written ends the run. -/
theorem Config.Titled.overrides_expanded {config : Config} {params doc override : Text}
    {byScope : Mapping} (h : config.Titled params doc override)
    (hdistinct : (Titles.lowered params doc override).Distinct)
    (hscopes : (config.get "scope_punctuation" (.map [])).entries? = some byScope) :
    ∃ settings, Settings.ofConfig config = .ok settings ∧
      ∀ separators : Separators,
        separators = ⟨byScope, config.get "default_scope_punctuation" (.text "#")⟩ →
        ∀ doclets : List Doclet, (∀ d ∈ doclets, d.IsFresh) →
        (∀ id ∈ documented settings doclets, id ∈ arriving settings doclets ∨
          ∃ x ∈ arriving settings doclets, x < id ∧ isExpanded settings doclets x = true ∧
            ∃ fault, (separators.of ((Run.start doclets).doclet x).scope).toText =
              .error fault) ∧
        (∀ id ∈ arriving settings doclets,
          Overridden (.lowered params doc override) separators settings doclets id) ∧
        (runAll settings doclets).1.dropped =
          ((arriving settings doclets).filter fun id =>
              isExpanded settings doclets id = true ∧ enclosers settings doclets id = []).map
            fun id => ⟨((Run.start doclets).doclet id).memberName,
              ((Run.start doclets).doclet id).memberof⟩ := by
  obtain ⟨settings, hsettings, htitles, hseparators⟩ := h.exists_settings
  rw [Config.separators_eq hscopes] at hseparators
  rw [← htitles] at hdistinct ⊢
  refine ⟨settings, hsettings, ?_⟩
  rintro separators rfl doclets hfresh
  refine ⟨fun id hid => mem_arriving_or_exists_unjoined hfresh hdistinct hseparators hid,
    fun id hid => overridden hfresh hdistinct hseparators hid, ?_⟩
  have harriving : arriving settings doclets =
      (List.range doclets.length).filter fun id => id ∈ arriving settings doclets := by
    conv_lhs => rw [arriving, documented, List.filter_filter]
    apply List.filter_congr
    intro id hid
    rw [Bool.eq_iff_iff, decide_eq_true_eq, mem_arriving, mem_documented, Bool.and_eq_true,
      Option.isNone_iff_eq_none, takesPart, Bool.not_eq_true', and_comm,
      and_iff_right (List.mem_range.mp hid)]
  have hend : runBefore settings doclets doclets.length = (runAll settings doclets).1 := rfl
  have hdropped := dropped_runBefore settings hfresh (Nat.le_refl doclets.length)
  rw [hend] at hdropped
  rw [hdropped]
  congr 1
  conv_rhs => rw [harriving, List.filter_filter]
  apply List.filter_congr
  intro id _
  rw [Bool.eq_iff_iff, Bool.and_eq_true, decide_eq_true_eq, decide_eq_true_eq, decide_eq_true_eq,
    and_comm]

/-- A class that waits for an ancestor, a member of it that overrides, a doclet of the same code
that does not, and an override without an enclosing class. -/
def Resolution.clan : List Doclet :=
  [{ longname := "C", superclasses := ["B", "A"], tags := [⟨"inheritdoc", some "X"⟩] },
    { longname := "C#m", name := "m", memberof := some "C", scope := some "instance",
      codeId := some "c", tags := [⟨"override", none⟩, ⟨"inheritdoc", some "Y"⟩] },
    { longname := "C#n", name := "n", memberof := some "C", codeId := some "c" },
    { longname := "Z#m", name := "m", memberof := some "Z", codeId := some "z",
      tags := [⟨"override", none⟩] }]

open Resolution in
/-- The member inherits from the same member of both superclasses after what its tag names, though
its class is not complete; the doclet that shares its code inherits nothing, and the override that
lacks a class is dropped. -/
theorem Config.Titled.overrides_expanded_clan :
    ∃ settings, Settings.ofConfig Config.defaults = .ok settings ∧
      (∀ d ∈ clan, d.IsFresh) ∧
      recorded settings clan 1 =
        [⟨"Y", .full, 0⟩, ⟨"B#m", .full, 1⟩, ⟨"A#m", .full, 2⟩] ∧
      recorded settings clan 2 = [] ∧
      (runAll settings clan).1.dropped = [⟨"Z#m", some "Z"⟩] := by
  have hdistinct : (Titles.lowered "inheritparams" "inheritdoc" "override").Distinct :=
    ⟨by decide, by decide, by decide⟩
  have hfresh : ∀ d ∈ clan, d.IsFresh := by
    intro d hd
    simp only [clan, List.mem_cons, List.not_mem_nil, or_false] at hd
    rcases hd with rfl | rfl | rfl | rfl <;> exact ⟨rfl, rfl, rfl, rfl, rfl, rfl, rfl, rfl⟩
  have hscopes : (Config.defaults.get "scope_punctuation" (.map [])).entries? = some
      [(.text "static", .text "."), (.text "inner", .text "~"), (.text "instance", .text "#")] :=
    rfl
  obtain ⟨settings, hsettings, hall⟩ :=
    Config.titled_defaults.overrides_expanded hdistinct hscopes
  obtain ⟨hreach, hoverridden, hdropped⟩ := hall _ rfl clan hfresh
  cases Settings.ofConfig_defaults.symm.trans hsettings
  have harrives : ∀ id ∈ documented .standard clan, id ∈ arriving .standard clan :=
    fun id hid => mem_arriving.mpr ⟨hid, snd_feedAll Settings.canJoin_standard _ _⟩
  have harriving : arriving .standard clan = [0, 1, 2, 3] := by
    rw [arriving, List.filter_eq_self.mpr fun id hid => ?_]
    · decide
    · rw [(mem_arriving.mp (harrives id hid)).2]
      rfl
  have hmember := hoverridden 1 (harrives 1 (by decide))
  have hsharer := hoverridden 2 (harrives 2 (by decide))
  refine ⟨.standard, rfl, hfresh, ?_, ?_, ?_⟩
  · obtain ⟨x, hx, -, -, hrecorded⟩ :=
      hmember.members (hmember.expanded.mpr (by decide)) (by decide)
    have henclosers : enclosers .standard clan 1 = [0] := by decide
    rw [henclosers, List.mem_singleton] at hx
    subst hx
    rw [hrecorded]
    decide
  · have hnot : isExpanded .standard clan 2 = false := by
      rw [Bool.eq_false_iff, Ne, hsharer.expanded]
      decide
    rw [(hsharer.own (Or.inl hnot)).2]
    decide
  · -- who is expanded is known from the tags
    have hexpanded : (arriving .standard clan).filter (fun id =>
        isExpanded .standard clan id = true ∧ enclosers .standard clan id = []) =
        [0, 1, 2, 3].filter fun id =>
          (((Run.start clan).doclet id).codeId.getD [] ≠ [] ∧
            ∃ tag ∈ ((Run.start clan).doclet id).tags,
              tag.overrides (.lowered "inheritparams" "inheritdoc" "override") = true) ∧
          enclosers .standard clan id = [] := by
      rw [← harriving]
      apply List.filter_congr
      intro id hid
      rw [decide_eq_decide, (hoverridden id hid).expanded]
    rw [hdropped, hexpanded]
    decide

end DocLineage
