import DocLineage.Proofs.Overriding
import DocLineage.Proofs.Retention
import DocLineage.Proofs.RoundTrip

/-!
# Where links come from

A tag that declares an ancestor in full adds a link to it, and so does the expansion of an override
for every member of a superclass. Nothing else in a run touches links. So the links that a doclet
ends with are known when it has arrived: those that it was loaded with, and one for each ancestor
that it has declared in full, whatever becomes of these ancestors.

## Main definitions

* `PendingAncestor.inFull` — the names of the ancestors that are declared in full
* `Tag.inFull?` — the ancestor that a tag declares in full
* `Doclet.members` — the same member of some superclasses
* `Resolution.DeclaresMembers` — the members that a doclet declares for its override

## Main results

* `Doclet.inFull_record` — what a doclet declares in full when it arrives
* `Resolution.see_runBefore` — the links of a doclet, at every moment of a run
* `Resolution.see_resolve` — the links that a doclet ends with
-/

namespace DocLineage

/-! ### What is declared in full -/

namespace PendingAncestor

/-- The names of the ancestors that are declared in full, in order. -/
def inFull (entries : List PendingAncestor) : List Text :=
  (entries.filter fun e => e.mode = .full).map identity

theorem inFull_append (entries entries' : List PendingAncestor) :
    inFull (entries ++ entries') = inFull entries ++ inFull entries' := by
  rw [inFull, List.filter_append, List.map_append, inFull, inFull]

theorem inFull_ranked (rank : Nat) (names : List Text) :
    inFull (ranked rank (names.map fun name => (name, .full))) = names := by
  induction names generalizing rank with
  | nil => rfl
  | cons name names ih => exact congrArg (name :: ·) (ih (rank + 1))

end PendingAncestor

/-- The ancestor that a tag declares in full: the first word of the value of a tag that the
dictionary accepts for this. -/
def Tag.inFull? (titles : Titles) (tag : Tag) : Option Text :=
  match (InheritTag.dictionary titles).judge tag with
  | .accepted .doc => some (Text.firstWord (tag.value.getD []))
  | _ => none

/-- Whatever the titles are, no tag without a value is accepted for this. -/
theorem InheritTag.hasValue_of_judge {titles : Titles} {tag : Tag}
    (h : (InheritTag.dictionary titles).judge tag = .accepted .doc) : tag.hasValue = true := by
  simp only [TagDictionary.judge, TagDictionary.lookup, InheritTag.dictionary, Table.get?_insert,
    Table.get?_empty] at h
  -- whichever title the tag is found under, an ancestor in full is asked for with a value
  by_contra hnone
  rw [Bool.not_eq_true] at hnone
  split_ifs at h <;> simp [TagDefinition.judge, hnone] at h

namespace Doclet

variable {settings : Settings} {d : Doclet} {superclasses : List Text}

/-- The same member of some superclasses, where members can be joined to their classes. -/
def members (settings : Settings) (superclasses : List Text) (d : Doclet) : List Text :=
  match settings.separators with
  | .error _ => []
  | .ok separators =>
    match (separators.of d.scope).toText with
    | .error _ => []
    | .ok separator => superclasses.map fun superclass => superclass ++ separator ++ d.name

theorem inFull_applyTag (settings : Settings) (d : Doclet) (tag : Tag) :
    PendingAncestor.inFull (d.applyTag settings tag).pending =
      PendingAncestor.inFull d.pending ++ (tag.inFull? settings.titles).toList := by
  unfold applyTag Tag.inFull?
  cases hjudge : (InheritTag.dictionary settings.titles).judge tag with
  | unknown => exact (List.append_nil _).symm
  | ignored problem => exact (List.append_nil _).symm
  | accepted action =>
    unfold perform
    cases action with
    | params =>
      dsimp only
      split
      · exact (List.append_nil _).symm
      · exact PendingAncestor.inFull_append _ _
    | doc =>
      -- the value of the tag is not blank, so that its first word is not empty
      obtain ⟨value, hvalue, hblank⟩ := Tag.hasValue_iff.mp (InheritTag.hasValue_of_judge hjudge)
      have hword : (Text.firstWord value).isEmpty = false := by
        rw [List.isEmpty_eq_false_iff, Ne, Text.firstWord_eq_nil_iff]
        exact hblank
      have hlinked := (declares_addLink (d := (d.declare (Text.firstWord value)
        .full).markParamsOnly false) settings.addsSeeLinks (Text.firstWord value)).pending
      rw [List.append_nil] at hlinked
      rw [hvalue, Option.getD_some]
      dsimp only
      rw [hword, if_neg Bool.false_ne_true, hlinked]
      exact PendingAncestor.inFull_append _ _
    | override =>
      dsimp only
      split <;> exact (List.append_nil _).symm

/-- The tags of a doclet declare in full what each of them does, in order. -/
theorem inFull_applyTags (settings : Settings) (d : Doclet) :
    PendingAncestor.inFull (d.applyTags settings).pending =
      PendingAncestor.inFull d.pending ++ d.tags.filterMap (Tag.inFull? settings.titles) := by
  have hfold : ∀ (tags : List Tag) (d : Doclet),
      PendingAncestor.inFull (tags.foldl (applyTag settings) d).pending =
        PendingAncestor.inFull d.pending ++ tags.filterMap (Tag.inFull? settings.titles) := by
    intro tags
    induction tags with
    | nil => exact fun _ => (List.append_nil _).symm
    | cons tag tags ih =>
      intro d
      rw [List.foldl_cons, ih, inFull_applyTag, List.append_assoc, List.filterMap_cons]
      cases tag.inFull? settings.titles <;> rfl
  exact hfold d.tags d

/-- An expansion declares the members of the superclasses in full. -/
theorem inFull_expand (settings : Settings) (x : DocletId) (superclasses : List Text)
    (d : Doclet) : PendingAncestor.inFull (d.expand settings x superclasses).1.pending =
      PendingAncestor.inFull d.pending ++ d.members settings superclasses := by
  unfold members
  cases hseparators : settings.separators with
  | error fault =>
    rw [expand, hseparators]
    exact (List.append_nil _).symm
  | ok separators =>
    dsimp only
    cases hseparator : (separators.of d.scope).toText with
    | error fault =>
      obtain ⟨-, -, hpending⟩ := expand_of_unjoined x superclasses hseparators hseparator
      rw [hpending]
      exact (List.append_nil _).symm
    | ok separator =>
      obtain ⟨-, -, hpending⟩ := expand_of_joined x superclasses hseparators hseparator
      have hranked := PendingAncestor.inFull_ranked d.declared
        (superclasses.map fun superclass => superclass ++ separator ++ d.name)
      rw [List.map_map] at hranked
      rw [hpending, PendingAncestor.inFull_append]
      exact congrArg _ hranked

/-- What a doclet declares in full when it arrives: what its tags say, and after that the members of
what its enclosing class extends, if it overrides one of them. -/
theorem inFull_record (settings : Settings) (found : Option (DocletId × List Text)) (d : Doclet) :
    PendingAncestor.inFull (d.record settings found).1.pending =
      PendingAncestor.inFull d.pending ++ d.tags.filterMap (Tag.inFull? settings.titles) ++
        match d.overriding settings d.tags, found with
        | some _, some (_, superclasses) => d.members settings superclasses
        | _, _ => [] := by
  -- the tags change neither the name nor the scope, which is all that a member is made of
  have hmembers : ∀ superclasses, (d.applyTags settings).members settings superclasses =
      d.members settings superclasses := by
    intro superclasses
    obtain ⟨hname, hscope⟩ := name_applyTags settings d
    rw [members, members, hname, hscope]
  unfold record
  cases d.overriding settings d.tags with
  | none => exact (inFull_applyTags settings d).trans (List.append_nil _).symm
  | some code =>
    cases found with
    | none => exact (inFull_applyTags settings d).trans (List.append_nil _).symm
    | some found =>
      dsimp only
      rw [inFull_expand, inFull_applyTags, hmembers]

end Doclet

/-! ### Links in a run -/

namespace Resolution

/-- The members of superclasses that the doclet at a place declares for its override, in order:
those of what an enclosing class before it extends, and none if there is no override or no such
class. -/
def DeclaresMembers (settings : Settings) (doclets : List Doclet) (id : DocletId)
    (members : List Text) : Prop :=
  if isExpanded settings doclets id = true ∧ enclosers settings doclets id ≠ [] then
    ∃ x ∈ enclosers settings doclets id, members = ((Run.start doclets).doclet id).members settings
      ((Run.start doclets).doclet x).superclasses
  else members = []

variable {settings : Settings} {doclets : List Doclet} {id : DocletId}

/-- What a doclet that arrives declares in full. -/
theorem inFull_recorded (hfresh : ∀ d ∈ doclets, d.IsFresh)
    (hid : id ∈ arriving settings doclets) :
    ∃ members, DeclaresMembers settings doclets id members ∧
      PendingAncestor.inFull (recorded settings doclets id) =
        ((Run.start doclets).doclet id).tags.filterMap (Tag.inFull? settings.titles) ++
          members := by
  obtain ⟨hexpanded, hdeclared, -⟩ := record_of_arriving hfresh hid
  have hfound := mem_enclosers_of_foundClass? hfresh hid
  have hnone : ((Run.start doclets).doclet id).pending = [] := by
    have hlength := (mem_documented.mp (mem_arriving.mp hid).1).1
    rw [doclet_start hlength]
    exact (hfresh _ (List.getElem_mem hlength)).pending
  rw [recorded, hdeclared, Doclet.inFull_record, hnone]
  refine ⟨_, ?_, rfl⟩
  unfold DeclaresMembers
  rw [hexpanded]
  cases ((Run.start doclets).doclet id).overriding settings
      ((Run.start doclets).doclet id).tags with
  | none =>
    -- without an override the class that encloses the doclet does not matter
    rw [if_neg fun h => absurd h.1 Bool.false_ne_true]
  | some code =>
    cases hclass : (runBefore settings doclets id).foundClass? id with
    | none =>
      rw [hclass] at hfound
      rw [if_neg fun h => h.2 hfound]
    | some found =>
      obtain ⟨x, superclasses⟩ := found
      rw [hclass] at hfound
      obtain ⟨hx, rfl⟩ := hfound
      rw [if_pos ⟨rfl, List.ne_nil_of_mem hx⟩]
      exact ⟨x, hx, rfl⟩

/-- At every moment of a run a doclet that has arrived has the links that it had when its ancestors
had been declared, and any other doclet those that it was loaded with. -/
theorem see_runBefore (hfresh : ∀ d ∈ doclets, d.IsFresh) {n : Nat} (hn : n ≤ doclets.length)
    (id : DocletId) : ((runBefore settings doclets n).doclet id).see =
      if id < n ∧ id ∈ arriving settings doclets then (declared settings doclets id).see
      else ((Run.start doclets).doclet id).see := by
  -- one arrival after the other: completion does not touch links, so that only the doclet that
  -- arrives gets new ones, when its ancestors are declared
  induction n with
  | zero =>
    rw [if_neg fun h => Nat.not_lt_zero _ h.1]
    rfl
  | succ n ih =>
    have hbefore := ih (Nat.le_of_succ_le hn)
    rw [runBefore_succ settings hfresh hn]
    by_cases harrives : n ∈ arriving settings doclets
    · have hfed : ((runBefore settings doclets n).feed settings n).1.fields Doclet.see =
          ((runBefore settings doclets n).declareAncestors settings n).1.fields Doclet.see :=
        Run.fields_feed_of_isInert Doclet.isInert_see
      rw [if_pos harrives, Run.field_eq_of_fields_eq hfed]
      by_cases hid : id = n
      · subst hid
        rw [if_pos ⟨Nat.lt_succ_self id, harrives⟩, declared]
      · have hdeclares : Run.Declares n (runBefore settings doclets n)
            ((runBefore settings doclets n).declareAncestors settings n).1 :=
          Run.declares_declareAncestors
        rw [hdeclares.doclet_of_ne id hid, hbefore]
        simp only [Nat.lt_succ_iff_lt_or_eq, hid, or_false]
    · -- nobody arrives
      rw [if_neg harrives, hbefore]
      by_cases hid : id = n
      · subst hid
        simp [harrives]
      · simp only [Nat.lt_succ_iff_lt_or_eq, hid, or_false]

/-- A doclet that arrives has at the end the links that it was loaded with, and those of what it
declares. -/
theorem see_of_arriving (hfresh : ∀ d ∈ doclets, d.IsFresh) (hid : id ∈ arriving settings doclets) :
    ((runAll settings doclets).1.doclet id).see = Doclet.linked settings.addsSeeLinks
      ((Run.start doclets).doclet id).see (recorded settings doclets id) := by
  have hlength := (mem_documented.mp (mem_arriving.mp hid).1).1
  have hrun := execution_before hfresh hid
  have hself : (runBefore settings doclets id).doclet id = (Run.start doclets).doclet id :=
    hrun.doclet_of_not_arrived (not_mem_arrivals_upTo settings doclets id)
  obtain ⟨entries, hlinks⟩ := Run.links_declareAncestors settings hrun.linked.overrides id
  rw [hself] at hlinks
  -- nothing was pending before, so that the entries are all that is pending now
  have hentries : recorded settings doclets id = entries := by
    have hnone := (hfresh _ (List.getElem_mem hlength)).pending
    rw [← doclet_start hlength] at hnone
    rw [recorded, declared, hlinks.declares.pending, hnone, List.nil_append]
  have hend : runBefore settings doclets doclets.length = (runAll settings doclets).1 := rfl
  rw [← hend, see_runBefore hfresh (Nat.le_refl _), if_pos ⟨hlength, hid⟩, hentries]
  exact hlinks.see

/-- A doclet that does not arrive has the links that it was loaded with. -/
theorem see_of_not_arriving (hfresh : ∀ d ∈ doclets, d.IsFresh)
    (hid : id ∉ arriving settings doclets) :
    ((runAll settings doclets).1.doclet id).see = ((Run.start doclets).doclet id).see := by
  have hend : runBefore settings doclets doclets.length = (runAll settings doclets).1 := rfl
  rw [← hend, see_runBefore hfresh (Nat.le_refl _), if_neg fun h => hid h.2]

variable {config : Config}

theorem addsSeeLinks_of_ofConfig (h : Settings.ofConfig config = .ok settings) :
    settings.addsSeeLinks = (config.get "add_see_links" (.bool true)).isTruthy := by
  obtain ⟨titles, -, h⟩ := Doclet.bind_eq_ok_iff.mp h
  cases h
  rfl

/-- A resolution of fresh doclets leaves each of them with the links that it was loaded with and,
where links are wanted, with one for every ancestor that it has declared in full, at its first
mention and unless it was there: for what its tags name, in order, and then for the members of what
its enclosing class extends, in order. Whether these ancestors ever complete does not matter. A
doclet that does not arrive declares nothing, and without a fault whoever takes part arrives. -/
theorem see_resolve (hsettings : Settings.ofConfig config = .ok settings)
    (hfresh : ∀ d ∈ doclets, d.IsFresh) (report : Option Report) :
    ((resolve config doclets report).fault = none →
      arriving settings doclets = documented settings doclets) ∧
    ∀ id d, doclets[id]? = some d →
      ∃ d', (resolve config doclets report).doclets[id]? = some d' ∧
        (id ∉ arriving settings doclets → d'.see = d.see) ∧
        (id ∈ arriving settings doclets → ∃ members,
          DeclaresMembers settings doclets id members ∧
          PendingAncestor.inFull (recorded settings doclets id) =
            d.tags.filterMap (Tag.inFull? settings.titles) ++ members ∧
          d'.see = d.see ++
            if (config.get "add_see_links" (.bool true)).isTruthy then
              ((PendingAncestor.inFull (recorded settings doclets id)).filter
                fun name => name ∉ d.see).eraseDups
            else []) := by
  have hdoclets : (resolve config doclets report).doclets =
      (runAll settings doclets).1.doclets.toList := by
    rw [doclets_resolve, hsettings]
  refine ⟨fun hfault => ?_, fun id d hd => ?_⟩
  · obtain ⟨settings', hsettings', hended⟩ := settings_of_resolve hfault
    cases hsettings.symm.trans hsettings'
    exact arriving_eq_documented hended
  obtain ⟨hid, rfl⟩ := List.getElem?_eq_some_iff.mp hd
  have hsize : id < (runAll settings doclets).1.doclets.size := by
    rw [size_runAll hfresh]
    exact hid
  have hend : (resolve config doclets report).doclets[id]? =
      some ((runAll settings doclets).1.doclet id) := by
    rw [hdoclets, Array.getElem?_toList, Run.doclet, Array.getElem?_eq_getElem hsize]
    rfl
  rw [← doclet_start hid]
  refine ⟨_, hend, fun harrives => see_of_not_arriving hfresh harrives, fun harrives => ?_⟩
  obtain ⟨members, hmembers, hrecorded⟩ := inFull_recorded hfresh harrives
  refine ⟨members, hmembers, hrecorded, ?_⟩
  rw [see_of_arriving hfresh harrives, ← addsSeeLinks_of_ofConfig hsettings, Doclet.linked]
  split
  · rfl
  · exact (List.append_nil _).symm

/-- A class that extends one class twice and a second one, none of which are there, and a member of
it with a link that names the same ancestor in a tag and in its override. -/
def crowded : List Doclet :=
  [{ longname := "C", superclasses := ["B", "A", "B"] },
    { longname := "C#m", name := "m", memberof := some "C", scope := some "instance",
      codeId := some "c", see := ["A#m"],
      tags := [⟨"override", none⟩, ⟨"inheritdoc", some "B#m and more"⟩,
        ⟨"inheritparams", some "P"⟩] }]

/-- The ancestor that is declared three times is linked once, and the one that was linked already is
not linked again, though all of them are missing. -/
theorem see_resolve_crowded :
    Settings.ofConfig Config.defaults = .ok .standard ∧ (∀ d ∈ crowded, d.IsFresh) ∧
      PendingAncestor.inFull (recorded .standard crowded 1) =
        [Text.ofString "B#m", "B#m", "A#m", "B#m"] ∧
      (resolve Config.defaults crowded none).doclets[1]?.map Doclet.see =
        some [Text.ofString "A#m", "B#m"] := by
  have hfresh : ∀ d ∈ crowded, d.IsFresh := by
    intro d hd
    simp only [crowded, List.mem_cons, List.not_mem_nil, or_false] at hd
    rcases hd with rfl | rfl <;> exact ⟨rfl, rfl, rfl, rfl, rfl, rfl, rfl, rfl⟩
  have harrives : 1 ∈ arriving .standard crowded :=
    mem_arriving.mpr ⟨by decide, snd_feedAll Settings.canJoin_standard _ _⟩
  obtain ⟨-, hall⟩ := see_resolve Settings.ofConfig_defaults hfresh none
  obtain ⟨d', hd', -, hlinked⟩ := hall 1 _ rfl
  obtain ⟨members, hmembers, hrecorded, hsee⟩ := hlinked harrives
  -- the override is expanded within the class before it
  have hexpanded : isExpanded .standard crowded 1 = true := by
    rw [(record_of_arriving hfresh harrives).1]
    decide
  have henclosers : enclosers .standard crowded 1 = [0] := by decide
  rw [DeclaresMembers, henclosers, if_pos ⟨hexpanded, List.cons_ne_nil _ _⟩] at hmembers
  obtain ⟨x, hx, rfl⟩ := hmembers
  cases List.mem_singleton.mp hx
  refine ⟨rfl, hfresh, hrecorded.trans (by decide), ?_⟩
  rw [hd', Option.map_some, hsee, hrecorded]
  decide

end Resolution

end DocLineage
