import DocLineage.Proofs.SourceOrder

/-!
# What a doclet records when it arrives

The first half of an arrival written as a function of the doclet alone. Of the run it needs to know
only which class encloses the doclet and what that class extends; what it does to the run is to put
the new doclet in the place of the old one and to keep a record of what was dropped or ignored. The
tables are as they were before.

## Main definitions

* `Doclet.applyTags`, `Doclet.expand` — what the tags and an override do to a doclet
* `Doclet.record` — a doclet that has declared its ancestors
* `Run.foundClass?` — what a run tells a doclet about its enclosing class

## Main results

* `Run.changes_declareAncestors` — the first half of an arrival is what the doclet records
-/

namespace DocLineage

namespace Doclet

variable (settings : Settings)

/-- The doclet after what an inheritance tag on it makes happen. -/
def perform (d : Doclet) (action : InheritTag) (tag : Tag) : Doclet :=
  let ancestor := Text.firstWord (tag.value.getD [])
  match action with
  | .params =>
    if ancestor.isEmpty then d else (d.declare ancestor .paramsOnly).markParamsOnly true
  | .doc =>
    if ancestor.isEmpty then d
    else ((d.declare ancestor .full).markParamsOnly false).addLink settings.addsSeeLinks ancestor
  | .override =>
    match d.codeId with
    | none | some [] => d
    | some _ => d.markParamsOnly false

/-- The doclet after one of its tags. -/
def applyTag (d : Doclet) (tag : Tag) : Doclet :=
  match (InheritTag.dictionary settings.titles).judge tag with
  | .accepted action => d.perform settings action tag
  | _ => d

/-- The doclet after all of its tags. -/
def applyTags (d : Doclet) : Doclet := d.tags.foldl (applyTag settings) d

/-- The code for which some tags of the doclet declare an override. -/
def overriding (d : Doclet) (tags : List Tag) : Option Text :=
  match d.codeId with
  | none | some [] => none
  | some code =>
    if tags.any fun tag => (InheritTag.dictionary settings.titles).judge tag = .accepted .override
    then some code else none

/-- The doclet inherits everything from the same member of one superclass. -/
def declareMember (separator : Text) (d : Doclet) (superclass : Text) : Doclet :=
  let ancestor := superclass ++ separator ++ d.name
  (d.declare ancestor .full).addLink settings.addsSeeLinks ancestor

/-- The doclet after its override is expanded, where the enclosing class and what it extends are
known, and the fault that ends the run. -/
def expand (enclosing : DocletId) (superclasses : List Text) (d : Doclet) :
    Doclet × Option Fault :=
  let d := { d with enclosing := some enclosing }
  match settings.separators with
  | .error fault => (d, some fault)
  | .ok separators =>
    match superclasses, (separators.of d.scope).toText with
    | [], _ => (d, none)
    | _, .error fault => (d, some fault)
    | superclasses, .ok separator => (superclasses.foldl (declareMember settings separator) d, none)

/-- The doclet when it has declared its ancestors, where the enclosing class and what it extends may
be known, and the fault that ends the run. -/
def record (found : Option (DocletId × List Text)) (d : Doclet) : Doclet × Option Fault :=
  match d.overriding settings d.tags, found with
  | some _, some (enclosing, superclasses) =>
    (d.applyTags settings).expand settings enclosing superclasses
  | _, _ => (d.applyTags settings, none)

end Doclet

namespace Doclet

variable {settings : Settings} {d d' : Doclet} {tag : Tag} {before : List Tag}

theorem overriding_nil : d.overriding settings [] = none := by
  unfold overriding
  split <;> rfl

/-- Only a tag that declares an override makes a difference. -/
theorem overriding_append_of_ne
    (h : (InheritTag.dictionary settings.titles).judge tag ≠ .accepted .override) :
    d.overriding settings (before ++ [tag]) = d.overriding settings before := by
  simp only [overriding, List.any_append, List.any_cons, List.any_nil, decide_eq_false h,
    Bool.or_false]

theorem overriding_append_of_eq {code : Text} (hcode : d.codeId = some code) (hne : code ≠ [])
    (h : (InheritTag.dictionary settings.titles).judge tag = .accepted .override) :
    d.overriding settings (before ++ [tag]) = some code := by
  cases code with
  | nil => exact absurd rfl hne
  | cons s t =>
    simp only [overriding, hcode, List.any_append, List.any_cons, h, decide_true, Bool.true_or,
      Bool.or_true, if_true]

/-- Code that has no identity is not overridden. -/
theorem overriding_of_no_code (h : ∀ code, d.codeId = some code → code = []) (tags : List Tag) :
    d.overriding settings tags = none := by
  unfold overriding
  split
  · rfl
  · rfl
  · next code hne hcode => exact absurd (h code hcode) hne

theorem overriding_congr (h : d'.codeId = d.codeId) (tags : List Tag) :
    d'.overriding settings tags = d.overriding settings tags := by
  rw [overriding, overriding, h]

/-- What is overridden is the code of the doclet. -/
theorem codeId_of_overriding {code : Text} {tags : List Tag}
    (h : d.overriding settings tags = some code) : d.codeId = some code ∧ code ≠ [] := by
  unfold overriding at h
  split at h
  · cases h
  · cases h
  · next code' hne hcode =>
    split at h
    · cases h
      exact ⟨hcode, hne⟩
    · cases h

end Doclet

/-- What the first half of an arrival does to a run: the doclet at a place is changed, the list of
overrides is replaced, and some records are added. The journal does not count. -/
structure Run.Changes (id : DocletId) (f : Doclet → Doclet) (overrides : List Text)
    (dropped : List DroppedOverride) (ignored : List IgnoredTag) (r r' : Run) : Prop where
  doclets : r'.doclets = r.doclets.modify id f
  registry : r'.registry = { r.registry with overrides }
  dropped : r'.dropped = r.dropped ++ dropped
  ignored : r'.ignored = r.ignored ++ ignored

namespace Run

variable {settings : Settings} {r r' r'' : Run} {id : DocletId} {tag : Tag} {before tags : List Tag}
  {f g : Doclet → Doclet} {overrides overrides' : List Text}
  {dropped dropped' : List DroppedOverride} {ignored ignored' : List IgnoredTag}

theorem Changes.trans (h : Changes id f overrides dropped ignored r r')
    (h' : Changes id g overrides' dropped' ignored' r' r'') :
    Changes id (fun d => g (f d)) overrides' (dropped ++ dropped') (ignored ++ ignored') r r'' where
  doclets := by rw [h'.doclets, h.doclets, doclets_modify_modify]
  registry := by rw [h'.registry, h.registry]
  dropped := by rw [h'.dropped, h.dropped, List.append_assoc]
  ignored := by rw [h'.ignored, h.ignored, List.append_assoc]

/-- A step that keeps the tables and adds no record. -/
theorem Changes.of_eq (hdoclets : r'.doclets = r.doclets.modify id f)
    (hregistry : r'.registry = r.registry) (hdropped : r'.dropped = r.dropped)
    (hignored : r'.ignored = r.ignored) : Changes id f r.registry.overrides [] [] r r' :=
  ⟨hdoclets, hregistry, by rw [hdropped, List.append_nil], by rw [hignored, List.append_nil]⟩

/-- Only what is done to the doclet that is there counts. -/
theorem Changes.congr (h : Changes id f overrides dropped ignored r r')
    (hf : f (r.doclet id) = g (r.doclet id)) : Changes id g overrides dropped ignored r r' :=
  ⟨by rw [h.doclets, doclets_modify_congr hf], h.registry, h.dropped, h.ignored⟩

theorem changes_update : Changes id f r.registry.overrides [] [] r (r.update id f) :=
  .of_eq rfl rfl rfl rfl

/-- Nothing is done to a doclet. -/
theorem Changes.refl (h : f (r.doclet id) = r.doclet id) :
    Changes id f r.registry.overrides [] [] r r :=
  .of_eq (congrArg Run.doclets (update_eq_self h)).symm rfl rfl rfl

theorem changes_declare_update (r : Run) (id : DocletId) (ancestor : Text) (mode : InheritMode)
    (g : Doclet → Doclet) :
    Changes id (fun d => g (d.declare ancestor mode)) r.registry.overrides [] []
      r ((r.declare id ancestor mode).update id g) := by
  have hdeclare : Changes id (fun d => d.declare ancestor mode) r.registry.overrides [] []
      r (r.declare id ancestor mode) := .of_eq rfl rfl rfl rfl
  exact hdeclare.trans (changes_update (r := r.declare id ancestor mode))

/-! ### Tags -/

/-- An override puts the code of the doclet on the list, where it is already if a tag before this
one has put it there. -/
theorem changes_override {code : Text} (title : Text) (hcode : (r.doclet id).codeId = some code)
    (h : r.registry.overrides = ((r.doclet id).overriding settings before).toList) :
    Changes id (fun d => d.markParamsOnly false) [code] [] [] r
      { (r.note (.overrideFound title (r.doclet id).name code)).update id
          (fun d => d.markParamsOnly false) with
        registry := r.registry.addOverride code } := by
  refine ⟨rfl, ?_, (List.append_nil _).symm, (List.append_nil _).symm⟩
  unfold Registry.addOverride
  rw [h]
  cases hbefore : (r.doclet id).overriding settings before with
  | none => rfl
  | some code' =>
    obtain ⟨hcode', -⟩ := Doclet.codeId_of_overriding hbefore
    cases hcode.symm.trans hcode'
    simp

/-- What a tag makes happen to a run is what it makes happen to the doclet; and if it declares an
override, the code of the doclet is put on the list. -/
theorem changes_perform {action : InheritTag}
    (haccepted : (InheritTag.dictionary settings.titles).judge tag = .accepted action)
    (h : r.registry.overrides = ((r.doclet id).overriding settings before).toList) :
    Changes id (fun d => d.perform settings action tag)
      ((r.doclet id).overriding settings (before ++ [tag])).toList [] []
      r (r.perform settings id action tag) := by
  have hsame : (InheritTag.dictionary settings.titles).judge tag ≠ .accepted .override →
      ((r.doclet id).overriding settings (before ++ [tag])).toList = r.registry.overrides := by
    intro hne
    rw [Doclet.overriding_append_of_ne hne, h]
  unfold perform Doclet.perform
  cases action with
  | params =>
    rw [hsame (by rw [haccepted]; simp)]
    dsimp only
    split
    · exact .refl rfl
    · exact changes_declare_update _ _ _ _ fun d => d.markParamsOnly true
  | doc =>
    rw [hsame (by rw [haccepted]; simp)]
    dsimp only
    split
    · exact .refl rfl
    · exact changes_declare_update _ _ _ _ fun d => (d.markParamsOnly false).addLink _ _
  | override =>
    dsimp only
    cases hcode : (r.doclet id).codeId with
    | none =>
      have hnone : ∀ tags, (r.doclet id).overriding settings tags = none :=
        Doclet.overriding_of_no_code (by rw [hcode]; simp)
      rw [hnone] at h ⊢
      rw [← h]
      exact .refl (by rw [hcode])
    | some code =>
      cases code with
      | nil =>
        have hnone : ∀ tags, (r.doclet id).overriding settings tags = none :=
          Doclet.overriding_of_no_code (by rw [hcode]; rintro _ ⟨⟩; rfl)
        rw [hnone] at h ⊢
        rw [← h]
        exact .refl (by rw [hcode])
      | cons s t =>
        dsimp only
        rw [Doclet.overriding_append_of_eq hcode (List.cons_ne_nil s t) haccepted]
        exact (changes_override tag.title hcode h).congr (by rw [hcode])

theorem changes_applyTag (tag : Tag)
    (h : r.registry.overrides = ((r.doclet id).overriding settings before).toList) :
    Changes id (fun d => d.applyTag settings tag)
      ((r.doclet id).overriding settings (before ++ [tag])).toList []
      ((InheritTag.dictionary settings.titles).ignored { r.doclet id with tags := [tag] })
      r (applyTag settings id r tag) := by
  unfold applyTag Doclet.applyTag
  rw [TagDictionary.ignored, List.filterMap_cons, List.filterMap_nil]
  cases hjudge : (InheritTag.dictionary settings.titles).judge tag with
  | unknown =>
    rw [Doclet.overriding_append_of_ne (by rw [hjudge]; simp), ← h]
    exact .refl rfl
  | accepted action => exact changes_perform hjudge h
  | ignored problem =>
    rw [Doclet.overriding_append_of_ne (by rw [hjudge]; simp), ← h]
    exact ⟨doclets_modify_id.symm, rfl, (List.append_nil _).symm, rfl⟩

theorem changes_foldl_applyTag (r : Run) (before tags : List Tag)
    (h : r.registry.overrides = ((r.doclet id).overriding settings before).toList) :
    Changes id (fun d => tags.foldl (Doclet.applyTag settings) d)
      ((r.doclet id).overriding settings (before ++ tags)).toList []
      ((InheritTag.dictionary settings.titles).ignored { r.doclet id with tags })
      r (tags.foldl (applyTag settings id) r) := by
  induction tags generalizing r before with
  | nil =>
    rw [List.append_nil, ← h]
    exact .refl rfl
  | cons tag tags ih =>
    have hfirst := changes_applyTag tag h
    -- the first tag changes neither the code of the doclet nor the name that is shown for it
    have htag : Declares id r (applyTag settings id r tag) := declares_applyTag tag
    obtain ⟨entries, hdeclares⟩ := htag.doclet_self
    have hcode : ∀ tags, ((applyTag settings id r tag).doclet id).overriding settings tags =
        (r.doclet id).overriding settings tags :=
      Doclet.overriding_congr hdeclares.codeId
    have hname : ((applyTag settings id r tag).doclet id).displayName =
        (r.doclet id).displayName := by
      rw [hdeclares.eq]
      rfl
    have hrest := ih (applyTag settings id r tag) (before ++ [tag])
      (by rw [hfirst.registry, hcode])
    have hignored : (InheritTag.dictionary settings.titles).ignored
        { r.doclet id with tags := tag :: tags } =
        (InheritTag.dictionary settings.titles).ignored { r.doclet id with tags := [tag] } ++
          (InheritTag.dictionary settings.titles).ignored
            { (applyTag settings id r tag).doclet id with tags } := by
      have hshown : ({ (applyTag settings id r tag).doclet id with tags } : Doclet).displayName =
          ({ r.doclet id with tags } : Doclet).displayName := hname
      simp only [TagDictionary.ignored, hshown]
      exact List.filterMap_append (l := [tag])
    rw [hcode, List.append_assoc] at hrest
    rw [List.foldl_cons, hignored]
    exact hfirst.trans hrest

/-- All tags of a doclet: what they declare is recorded on it, what is ignored is noted, and an
override is put on the list. -/
theorem changes_applyTags (settings : Settings) (id : DocletId) (h : r.registry.overrides = []) :
    Changes id (Doclet.applyTags settings)
      ((r.doclet id).overriding settings (r.doclet id).tags).toList []
      ((InheritTag.dictionary settings.titles).ignored (r.doclet id))
      r (r.applyTags settings id) := by
  refine (changes_foldl_applyTag r [] (r.doclet id).tags ?_).congr rfl
  rw [h, Doclet.overriding_nil]
  rfl

/-! ### Overrides -/

theorem changes_foldl_declareMember (settings : Settings) (r : Run) (id : DocletId)
    (separator : Text) (superclasses : List Text) :
    Changes id (fun d => superclasses.foldl (Doclet.declareMember settings separator) d)
      r.registry.overrides [] []
      r (superclasses.foldl (declareMember settings separator id) r) := by
  induction superclasses generalizing r with
  | nil => exact .refl rfl
  | cons superclass superclasses ih =>
    -- the name of the doclet is read before anything is declared
    have hfirst : Changes id (fun d => d.declareMember settings separator superclass)
        r.registry.overrides [] [] r (declareMember settings separator id r superclass) := by
      have hdeclare := changes_declare_update r id
        (superclass ++ separator ++ (r.doclet id).name) .full
        fun d => d.addLink settings.addsSeeLinks (superclass ++ separator ++ (r.doclet id).name)
      exact hdeclare.congr rfl
    have hrest := ih (declareMember settings separator id r superclass)
    rw [hfirst.registry] at hrest
    exact hfirst.trans hrest

/-- What a run tells a doclet about the class that encloses it: its place, and what it extends. -/
def foundClass? (r : Run) (id : DocletId) : Option (DocletId × List Text) :=
  (r.enclosingClass? id).map fun enclosing => (enclosing, (r.doclet enclosing).superclasses)

/-- What a run drops of a doclet that arrives: its override, if it has one and no enclosing class is
found. -/
def droppedOf (settings : Settings) (r : Run) (id : DocletId) : List DroppedOverride :=
  match (r.doclet id).overriding settings (r.doclet id).tags, r.foundClass? id with
  | some _, none => [⟨(r.doclet id).memberName, (r.doclet id).memberof⟩]
  | _, _ => []

/-- Whoever has put its code on an empty list of overrides is expanded. -/
theorem wantsExpansion_eq (hcode : r.registry.overrides =
    ((r.doclet id).overriding settings tags).toList) :
    r.wantsExpansion id = ((r.doclet id).overriding settings tags).isSome := by
  unfold wantsExpansion
  rw [hcode]
  cases hoverriding : (r.doclet id).overriding settings tags with
  | none => split <;> rfl
  | some code =>
    obtain ⟨hcode, hne⟩ := Doclet.codeId_of_overriding hoverriding
    rw [hcode]
    cases code with
    | nil => exact absurd rfl hne
    | cons s t => simp

/-- The run without the override of the doclet on its list. -/
def unlist (r : Run) (id : DocletId) : Run :=
  { r with registry := r.registry.dropOverride ((r.doclet id).codeId.getD []) }

/-- The override of the doclet turned into ancestors, where the enclosing class is known. -/
def expandWithin (settings : Settings) (r : Run) (id enclosing : DocletId) : Run × Option Fault :=
  let r := r.update id fun d => { d with enclosing := some enclosing }
  match settings.separators with
  | .error fault => (r, some fault)
  | .ok separators =>
    match (r.doclet enclosing).superclasses, (separators.of (r.doclet id).scope).toText with
    | [], _ => (r, none)
    | _, .error fault => (r, some fault)
    | superclasses, .ok separator =>
      (superclasses.foldl (declareMember settings separator id) r, none)

/-- The expansion of an override takes it off the list; and then it is dropped, or turned into
ancestors. -/
theorem expand_eq : r.expand settings id =
    match r.enclosingClass? id with
    | none => ((r.unlist id).dropOverride id, none)
    | some enclosing => (r.unlist id).expandWithin settings id enclosing := by
  rfl

theorem changes_unlist (r : Run) (id : DocletId) : Changes id (fun d => d)
    (r.registry.overrides.filter (· != (r.doclet id).codeId.getD [])) [] [] r (r.unlist id) :=
  ⟨doclets_modify_id.symm, rfl,
    (List.append_nil _).symm, (List.append_nil _).symm⟩

theorem changes_expandWithin (settings : Settings) (r : Run) (id enclosing : DocletId) :
    Changes id (fun d => (d.expand settings enclosing (r.doclet enclosing).superclasses).1)
        r.registry.overrides [] [] r (r.expandWithin settings id enclosing).1 ∧
      (r.expandWithin settings id enclosing).2 =
        ((r.doclet id).expand settings enclosing (r.doclet enclosing).superclasses).2 := by
  have henclosing : Changes id (fun d => { d with enclosing := some enclosing })
      r.registry.overrides [] [] r
      (r.update id fun d => { d with enclosing := some enclosing }) := changes_update
  have hsuperclasses : ((r.update id fun d => { d with enclosing := some enclosing }).doclet
      enclosing).superclasses = (r.doclet enclosing).superclasses :=
    field_update Doclet.superclasses fun _ => rfl
  have hscope : ((r.update id fun d => { d with enclosing := some enclosing }).doclet id).scope =
      (r.doclet id).scope := field_update Doclet.scope fun _ => rfl
  unfold expandWithin
  dsimp only
  rw [hsuperclasses, hscope]
  unfold Doclet.expand
  dsimp only
  cases settings.separators with
  | error fault => exact ⟨henclosing, rfl⟩
  | ok separators =>
    dsimp only
    cases (r.doclet enclosing).superclasses with
    | nil => exact ⟨henclosing, rfl⟩
    | cons superclass superclasses =>
      cases hseparator : (separators.of (r.doclet id).scope).toText with
      | error fault => exact ⟨henclosing.congr (by simp only [hseparator]), rfl⟩
      | ok separator =>
        have hmembers := changes_foldl_declareMember settings
          (r.update id fun d => { d with enclosing := some enclosing }) id separator
          (superclass :: superclasses)
        exact ⟨(henclosing.trans hmembers).congr (by simp only [hseparator]), rfl⟩

/-! ### The first half of an arrival -/

theorem Changes.doclet_self (h : Changes id f overrides dropped ignored r r')
    (hid : id < r.doclets.size) : r'.doclet id = f (r.doclet id) := by
  rw [doclet, h.doclets]
  exact doclet_update_self hid

theorem Changes.doclet_of_ne (h : Changes id f overrides dropped ignored r r') {x : DocletId}
    (hx : x ≠ id) : r'.doclet x = r.doclet x := by
  rw [doclet, h.doclets]
  exact doclet_update_of_ne hx

/-- A doclet that declares its ancestors is told of the same enclosing class all the time. -/
theorem Declares.foundClass?_eq (h : Declares id r r') : r'.foundClass? id = r.foundClass? id := by
  obtain ⟨entries, hentries⟩ := h.doclet_self
  have hmemberof : (r'.doclet id).memberof = (r.doclet id).memberof := by rw [hentries.eq]
  have hsuperclasses : ∀ x, (r'.doclet x).superclasses = (r.doclet x).superclasses := by
    intro x
    by_cases hx : x = id
    · subst hx
      rw [hentries.eq]
    · rw [h.doclet_of_ne x hx]
  have henclosing : r'.enclosingClass? id = r.enclosingClass? id := by
    unfold enclosingClass? Registry.find?
    rw [hmemberof, h.completed, h.waiting]
  unfold foundClass?
  rw [henclosing]
  exact congrArg (Option.map · _) (funext fun x => by rw [hsuperclasses])

theorem changes_dropOverride (r : Run) (id : DocletId) :
    Changes id (fun d => d) r.registry.overrides
      [⟨(r.doclet id).memberName, (r.doclet id).memberof⟩] [] r (r.dropOverride id) :=
  ⟨doclets_modify_id.symm, rfl, rfl, (List.append_nil _).symm⟩

/-- The expansion of an override is what the doclet records; it is dropped if no enclosing class is
found. -/
theorem changes_expand (settings : Settings) {code : Text}
    (hcode : (r.doclet id).codeId = some code) (h : r.registry.overrides = [code]) :
    Changes id (fun d => match r.foundClass? id with
        | none => d
        | some (enclosing, superclasses) => (d.expand settings enclosing superclasses).1)
        [] (match r.foundClass? id with
          | none => [⟨(r.doclet id).memberName, (r.doclet id).memberof⟩]
          | some _ => []) [] r (r.expand settings id).1 ∧
      (r.expand settings id).2 = match r.foundClass? id with
        | none => none
        | some (enclosing, superclasses) =>
          ((r.doclet id).expand settings enclosing superclasses).2 := by
  have hunlist := changes_unlist r id
  have hnil : r.registry.overrides.filter (· != (r.doclet id).codeId.getD []) = [] := by
    rw [h, hcode]
    simp
  rw [hnil] at hunlist
  rw [expand_eq]
  unfold foundClass?
  cases r.enclosingClass? id with
  | none =>
    have hdrop := changes_dropOverride (r.unlist id) id
    rw [hunlist.registry] at hdrop
    exact ⟨hunlist.trans hdrop, rfl⟩
  | some enclosing =>
    have hwithin := changes_expandWithin settings (r.unlist id) id enclosing
    rw [hunlist.registry] at hwithin
    exact ⟨hunlist.trans hwithin.1, hwithin.2⟩

/-- Who has an override is expanded, whatever other doclets there are. -/
theorem wantsExpansion_applyTags (settings : Settings) (id : DocletId)
    (h : r.registry.overrides = []) : (r.applyTags settings id).wantsExpansion id =
      ((r.doclet id).overriding settings (r.doclet id).tags).isSome := by
  have hdeclares : Declares id r (r.applyTags settings id) := declares_applyTags
  have hcode : ((r.applyTags settings id).doclet id).overriding settings (r.doclet id).tags =
      (r.doclet id).overriding settings (r.doclet id).tags :=
    Doclet.overriding_congr hdeclares.codeId (r.doclet id).tags
  rw [← hcode]
  apply wantsExpansion_eq
  rw [hcode, (changes_applyTags settings id h).registry]

/-- The first half of an arrival at a run without overrides is what the doclet records; the tables
are left as they are. -/
theorem changes_declareAncestors (settings : Settings) (hid : id < r.doclets.size)
    (h : r.registry.overrides = []) :
    Changes id (fun d => (d.record settings (r.foundClass? id)).1) [] (r.droppedOf settings id)
        ((InheritTag.dictionary settings.titles).ignored (r.doclet id))
        r (r.declareAncestors settings id).1 ∧
      (r.declareAncestors settings id).2 =
        ((r.doclet id).record settings (r.foundClass? id)).2 := by
  have htags := changes_applyTags settings id h
  have hdeclares : Declares id r (r.applyTags settings id) := declares_applyTags
  obtain ⟨entries, hentries⟩ := hdeclares.doclet_self
  unfold declareAncestors
  dsimp only
  rw [wantsExpansion_applyTags settings id h]
  unfold droppedOf Doclet.record
  cases hoverriding : (r.doclet id).overriding settings (r.doclet id).tags with
  | none =>
    rw [hoverriding] at htags
    exact ⟨htags.congr (by rw [hoverriding]), rfl⟩
  | some code =>
    have hcode := (Doclet.codeId_of_overriding hoverriding).1
    have hexpand := changes_expand settings (hentries.codeId.trans hcode)
      (by rw [htags.registry, hoverriding]; rfl)
    rw [hdeclares.foundClass?_eq, htags.doclet_self hid] at hexpand
    have hshown : ((r.doclet id).applyTags settings).memberName = (r.doclet id).memberName ∧
        ((r.doclet id).applyTags settings).memberof = (r.doclet id).memberof := by
      rw [← htags.doclet_self hid, hentries.eq]
      exact ⟨rfl, rfl⟩
    rw [hshown.1, hshown.2] at hexpand
    have hall := htags.trans hexpand.1
    rw [List.append_nil, List.nil_append] at hall
    cases hfound : r.foundClass? id with
    | none =>
      rw [hfound] at hall hexpand
      exact ⟨hall.congr (by rw [hoverriding]), hexpand.2⟩
    | some found =>
      rw [hfound] at hall hexpand
      exact ⟨hall.congr (by rw [hoverriding]), hexpand.2⟩

end Run

/-- What a doclet declares when it overrides no member is what its tags declare, whatever has arrived
before it. -/
theorem Resolution.recorded_of_not_overriding {settings : Settings} {doclets : List Doclet}
    {id : DocletId} (hfresh : ∀ d ∈ doclets, d.IsFresh)
    (hended : (runAll settings doclets).2 = none) (hid : id < doclets.length)
    (h : ((Run.start doclets).doclet id).overriding settings
      ((Run.start doclets).doclet id).tags = none) :
    recorded settings doclets id = (((Run.start doclets).doclet id).applyTags settings).pending := by
  have hrun := execution_upTo hfresh (Nat.le_of_lt hid)
    (snd_feedAll_range_of_le (Nat.le_of_lt hid) hended)
  have hsame := hrun.doclet_of_not_arrived (not_mem_arrivals_upTo settings doclets id)
  have hsize : id < (runBefore settings doclets id).doclets.size := by
    rw [hrun.size_eq]
    exact hid
  obtain ⟨hchanges, -⟩ := Run.changes_declareAncestors settings hsize hrun.linked.overrides
  rw [recorded, declared, hchanges.doclet_self hsize, hsame]
  unfold Doclet.record
  rw [h]

end DocLineage
