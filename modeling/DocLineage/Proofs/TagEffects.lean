import DocLineage.Proofs.Recording
import Mathlib.Data.List.TakeWhile

/-!
# What the tags of a doclet do

The tags are applied one after the other, and a dictionary decides about each of them. Here their
effect is said without either: which tags name an ancestor, which are ignored and which ask for an
override follows from the title and the value of a tag alone, and the effect of many tags is the
list of the effects of each.

## Main definitions

* `Config.Titled` — the titles that a configuration gives to the inheritance tags
* `Tag.entry?`, `Tag.problem?`, `Tag.overrides` — what a tag asks for, and what is wrong with it
* `Text.IsFirstWord` — the word that stands first in a text
* `Run.TagsApplied` — everything that the tags of a doclet have done

## Main results

* `InheritTag.judge_dictionary` — the dictionary decides by the title and the value of a tag
* `Config.Titled.tagsApplied` — what happens when the tags of a doclet are applied
-/

namespace DocLineage

/-! ### Titles -/

/-- The titles under which the three inheritance tags are known differ. -/
structure Titles.Distinct (titles : Titles) : Prop where
  doc : titles.inheritDoc ≠ titles.inheritParams
  override : titles.override ≠ titles.inheritParams
  override_doc : titles.override ≠ titles.inheritDoc

/-- The titles that a configuration gives to the inheritance tags, as they are written there. A
title that is not given is the name of the tag itself. -/
structure Config.Titled (config : Config) (params doc override : Text) : Prop where
  tags : ∃ given, (config.get "tags" (.map [])).entries? = some given ∧
    (given.get? "inheritparams").getD (.text "inheritparams") = .text params ∧
    (given.get? "inheritdoc").getD (.text "inheritdoc") = .text doc ∧
    (given.get? "override").getD (.text "override") = .text override

/-- The lower-cased titles of the three tags. -/
def Titles.lowered (params doc override : Text) : Titles where
  inheritParams := Text.lower params
  inheritDoc := Text.lower doc
  override := Text.lower override

theorem Config.title_eq_ok {given : Mapping} {name t : Text}
    (h : (given.get? name).getD (.text name) = .text t) :
    Config.title given name = .ok (Text.lower t) := by
  rw [Config.title, h]

/-- A configuration that gives texts as titles is read, and its titles are lower-cased. -/
theorem Config.Titled.titles_eq {config : Config} {params doc override : Text}
    (h : config.Titled params doc override) :
    config.titles = .ok (.lowered params doc override) := by
  obtain ⟨given, hgiven, hparams, hdoc, hoverride⟩ := h.tags
  rw [Config.titles, Config.asMapping, hgiven]
  dsimp only [bind, Except.bind]
  rw [Config.title_eq_ok hparams, Config.title_eq_ok hdoc, Config.title_eq_ok hoverride]
  rfl

/-- The settings of a configuration that gives texts as titles. -/
theorem Config.Titled.exists_settings {config : Config} {params doc override : Text}
    (h : config.Titled params doc override) :
    ∃ settings, Settings.ofConfig config = .ok settings ∧
      settings.titles = .lowered params doc override ∧
      settings.separators = config.separators := by
  rw [Settings.ofConfig, h.titles_eq]
  exact ⟨_, rfl, rfl, rfl⟩

/-! ### The first word of a text -/

namespace Text

/-- The word stands first in a text: only blank symbols come before it, it has none itself, and
where it ends a blank symbol follows or the text ends. -/
structure IsFirstWord (word t : Text) : Prop where
  split : ∃ before after : Text, t = before ++ word ++ after ∧ before.IsBlank ∧
    ∀ s ∈ after.head?, isBlankSymbol s = true
  ne_nil : word ≠ []
  solid : ∀ s ∈ word, isBlankSymbol s = false

/-- A text that is not blank has a first word. -/
theorem isFirstWord_firstWord {t : Text} (h : ¬ t.IsBlank) : t.firstWord.IsFirstWord t where
  split := by
    refine ⟨t.takeWhile isBlankSymbol,
      (t.dropWhile isBlankSymbol).dropWhile fun s => !isBlankSymbol s, ?_, ?_, ?_⟩
    · rw [firstWord, List.append_assoc, List.takeWhile_append_dropWhile,
        List.takeWhile_append_dropWhile]
    · exact fun s hs => List.mem_takeWhile_imp hs
    · intro s hs
      have hne := List.head?_dropWhile_not (fun s => !isBlankSymbol s) (t.dropWhile isBlankSymbol)
      rw [Option.mem_def.mp hs] at hne
      simpa using hne
  ne_nil := fun hnil => h (firstWord_eq_nil_iff.mp hnil)
  solid := fun _ hs => not_isBlankSymbol_of_mem_firstWord hs

end Text

/-! ### What a tag asks for -/

/-- What a tag asks for. -/
inductive TagReading where
  /-- The tag is none of the inheritance tags. -/
  | foreign
  /-- An ancestor is named. -/
  | ancestor (identity : Text) (mode : InheritMode)
  /-- The doclet overrides a member of the superclasses. -/
  | override
  /-- A value is missing, or there is one too many. -/
  | malformed (problem : TagProblem)

namespace Tag

/-- What a tag asks for, where the inheritance tags go by the given titles. -/
def reading (titles : Titles) (tag : Tag) : TagReading :=
  if Text.lower tag.title = titles.inheritParams then
    if tag.hasValue then .ancestor (Text.firstWord (tag.value.getD [])) .paramsOnly
    else .malformed .needsValue
  else if Text.lower tag.title = titles.inheritDoc then
    if tag.hasValue then .ancestor (Text.firstWord (tag.value.getD [])) .full
    else .malformed .needsValue
  else if Text.lower tag.title = titles.override then
    if tag.hasValue then .malformed .refusesValue else .override
  else .foreign

/-- The ancestor that a tag names, and how much is inherited from it. -/
def entry? (titles : Titles) (tag : Tag) : Option (Text × InheritMode) :=
  match tag.reading titles with
  | .ancestor identity mode => some (identity, mode)
  | _ => none

/-- What is wrong with an inheritance tag. -/
def problem? (titles : Titles) (tag : Tag) : Option TagProblem :=
  match tag.reading titles with
  | .malformed problem => some problem
  | _ => none

/-- The tag asks for an override. -/
def overrides (titles : Titles) (tag : Tag) : Bool :=
  match tag.reading titles with
  | .override => true
  | _ => false

/-- What a tag makes of the mark that only parameters are inherited: whoever names an ancestor sets
it or clears it, and an override of code with an identity clears it. -/
def mark? (titles : Titles) (codeId : Option Text) (tag : Tag) : Option Bool :=
  match tag.reading titles with
  | .ancestor _ mode => some (mode = .paramsOnly)
  | .override => if codeId.getD [] = [] then none else some false
  | _ => none

variable {titles : Titles} {tag : Tag} {identity : Text} {mode : InheritMode}

/-- A tag has a value if that is not blank. -/
theorem hasValue_iff : tag.hasValue = true ↔ ∃ value, tag.value = some value ∧ ¬ value.IsBlank := by
  unfold hasValue
  cases tag.value with
  | none => simp
  | some value => simp [← Text.isBlank_iff]

theorem hasValue_of_reading (h : tag.reading titles = .ancestor identity mode) :
    tag.hasValue = true ∧ Text.firstWord (tag.value.getD []) = identity := by
  unfold reading at h
  split_ifs at h with _ hvalue _ hvalue
  all_goals
    cases h
    exact ⟨hvalue, rfl⟩

/-- An ancestor is named by the first word of a value that is not blank. -/
theorem isFirstWord_of_reading (h : tag.reading titles = .ancestor identity mode) :
    ∃ value, tag.value = some value ∧ identity.IsFirstWord value := by
  obtain ⟨hvalue, hword⟩ := hasValue_of_reading h
  obtain ⟨value, hsome, hblank⟩ := hasValue_iff.mp hvalue
  rw [hsome] at hword
  exact ⟨value, hsome, hword ▸ Text.isFirstWord_firstWord hblank⟩

end Tag

/-- What the dictionary makes of a tag that asks for something. -/
def TagReading.verdict : TagReading → TagVerdict InheritTag
  | .foreign => .unknown
  | .ancestor _ .paramsOnly => .accepted .params
  | .ancestor _ .full => .accepted .doc
  | .override => .accepted .override
  | .malformed problem => .ignored problem

/-- Where the titles differ, every tag is found under its own. -/
theorem InheritTag.lookup_dictionary {titles : Titles} (h : titles.Distinct) (title : Text) :
    (InheritTag.dictionary titles).lookup title =
      if Text.lower title = titles.inheritParams then some { action := .params, needsValue := true }
      else if Text.lower title = titles.inheritDoc then some { action := .doc, needsValue := true }
      else if Text.lower title = titles.override then
        some { action := .override, refusesValue := true }
      else none := by
  simp only [TagDictionary.lookup, InheritTag.dictionary, Table.get?_insert, Table.get?_empty,
    eq_comm (a := Text.lower title)]
  have hdoc := h.doc
  have hoverride := h.override
  have hoverrideDoc := h.override_doc
  grind

/-- The dictionary decides by what a tag asks for. -/
theorem InheritTag.judge_dictionary {titles : Titles} (h : titles.Distinct) (tag : Tag) :
    (InheritTag.dictionary titles).judge tag = (tag.reading titles).verdict := by
  rw [TagDictionary.judge, lookup_dictionary h, Tag.reading]
  split_ifs with hparams hvalue hdoc hvalue hoverride hvalue
  all_goals simp [TagDefinition.judge, TagReading.verdict, *]

/-! ### The effect of many tags -/

/-- Declarations in order, ranked one after the other from the given rank on. -/
def PendingAncestor.ranked (rank : Nat) : List (Text × InheritMode) → List PendingAncestor
  | [] => []
  | (identity, mode) :: es => ⟨identity, mode, rank⟩ :: ranked (rank + 1) es

theorem PendingAncestor.ranked_append (rank : Nat) (es es' : List (Text × InheritMode)) :
    ranked rank (es ++ es') = ranked rank es ++ ranked (rank + es.length) es' := by
  induction es generalizing rank with
  | nil => rfl
  | cons e es ih =>
    rw [List.cons_append, ranked, ranked, ih, List.cons_append, List.length_cons,
      Nat.add_right_comm, Nat.add_assoc]

/-- Everything that some tags have done to the doclet at a place, and to the run. -/
structure Run.TagsApplied (titles : Titles) (id : DocletId) (tags : List Tag) (r r' : Run) :
    Prop where
  /-- The ancestors that are named become pending, in order and ranked one after the other. -/
  pending : (r'.doclet id).pending = (r.doclet id).pending ++
    PendingAncestor.ranked (r.doclet id).declared (tags.filterMap (Tag.entry? titles))
  declared : (r'.doclet id).declared =
    (r.doclet id).declared + (tags.filterMap (Tag.entry? titles)).length
  /-- The last tag that sets or clears the mark decides about it. -/
  paramsOnly : (r'.doclet id).inheritParamsOnly =
    (tags.filterMap (Tag.mark? titles (r.doclet id).codeId)).getLast?.getD
      (r.doclet id).inheritParamsOnly
  /-- Of every malformed tag there is one record, in order. -/
  ignored : r'.ignored = r.ignored ++ tags.filterMap fun tag =>
    (tag.problem? titles).map fun problem => ⟨(r.doclet id).displayName, tag.title, problem⟩
  /-- The code of the doclet is listed if a tag asks for an override. -/
  overrides : ∀ code, code ∈ r'.registry.overrides ↔ code ∈ r.registry.overrides ∨
    (r.doclet id).codeId = some code ∧ code ≠ [] ∧ ∃ tag ∈ tags, tag.overrides titles = true
  /-- Beside its links nothing else of the doclet changes. -/
  rest : r'.doclet id = { r.doclet id with
    pending := (r'.doclet id).pending
    declared := (r'.doclet id).declared
    inheritParamsOnly := (r'.doclet id).inheritParamsOnly
    see := (r'.doclet id).see }
  others : ∀ x, x ≠ id → r'.doclet x = r.doclet x
  tables : r'.registry = { r.registry with overrides := r'.registry.overrides }
  dropped : r'.dropped = r.dropped

namespace Run

variable {settings : Settings} {titles : Titles} {r r' r'' : Run} {id : DocletId} {tag : Tag}
  {tags tags' : List Tag}

namespace TagsApplied

theorem codeId (h : TagsApplied titles id tags r r') :
    (r'.doclet id).codeId = (r.doclet id).codeId := by
  rw [h.rest]

theorem displayName (h : TagsApplied titles id tags r r') :
    (r'.doclet id).displayName = (r.doclet id).displayName := by
  rw [h.rest]
  rfl

theorem refl (titles : Titles) (id : DocletId) (r : Run) : TagsApplied titles id [] r r where
  pending := (List.append_nil _).symm
  declared := rfl
  paramsOnly := rfl
  ignored := (List.append_nil _).symm
  overrides := by simp
  rest := rfl
  others _ _ := rfl
  tables := rfl
  dropped := rfl

/-- What some tags have done and what further tags do then is what all of them do. -/
theorem trans (h : TagsApplied titles id tags r r') (h' : TagsApplied titles id tags' r' r'') :
    TagsApplied titles id (tags ++ tags') r r'' where
  pending := by
    rw [h'.pending, h.pending, h.declared, List.filterMap_append, PendingAncestor.ranked_append,
      List.append_assoc]
  declared := by
    rw [h'.declared, h.declared, List.filterMap_append, List.length_append, Nat.add_assoc]
  paramsOnly := by
    rw [h'.paramsOnly, h.paramsOnly, h.codeId, List.filterMap_append, List.getLast?_append]
    cases (tags'.filterMap (Tag.mark? titles (r.doclet id).codeId)).getLast? <;> rfl
  ignored := by
    rw [h'.ignored, h.ignored, h.displayName, List.filterMap_append, List.append_assoc]
  overrides code := by
    rw [h'.overrides, h.overrides, h.codeId]
    simp only [List.mem_append, or_and_right, exists_or, and_or_left, or_assoc]
  rest := by
    rw [h'.rest, h.rest]
  others x hx := (h'.others x hx).trans (h.others x hx)
  tables := by rw [h'.tables, h.tables]
  dropped := h'.dropped.trans h.dropped

end TagsApplied

/-! ### One tag -/

/-- A step that does not touch the doclets and adds no record. -/
theorem TagsApplied.of_foreign (h : tag.reading titles = .foreign) :
    TagsApplied titles id [tag] r r where
  pending := by simp [Tag.entry?, h, PendingAncestor.ranked]
  declared := by simp [Tag.entry?, h]
  paramsOnly := by simp [Tag.mark?, h]
  ignored := by simp [Tag.problem?, h]
  overrides := by simp [Tag.overrides, h]
  rest := rfl
  others _ _ := rfl
  tables := rfl
  dropped := rfl

theorem tagsApplied_malformed {problem : TagProblem} (h : tag.reading titles = .malformed problem)
    (notice : Notice) : TagsApplied titles id [tag] r
      { r.note notice with
        ignored := r.ignored ++ [⟨(r.doclet id).displayName, tag.title, problem⟩] } where
  pending := by simp [Tag.entry?, h, PendingAncestor.ranked, doclet, note]
  declared := by simp [Tag.entry?, h, doclet, note]
  paramsOnly := by simp [Tag.mark?, h, doclet, note]
  ignored := by simp [Tag.problem?, h]
  overrides := by simp [Tag.overrides, h]
  rest := rfl
  others _ _ := rfl
  tables := rfl
  dropped := rfl

/-- An ancestor is declared, and what is then done to the doclet sets the mark and may add links. -/
theorem tagsApplied_ancestor {identity : Text} {mode : InheritMode} {f : Doclet → Doclet}
    (h : tag.reading titles = .ancestor identity mode) (hid : id < r.doclets.size)
    (hf : ∀ d : Doclet,
      f d = { d with inheritParamsOnly := decide (mode = .paramsOnly), see := (f d).see }) :
    TagsApplied titles id [tag] r ((r.declare id identity mode).update id f) := by
  have hself : ((r.declare id identity mode).update id f).doclet id =
      f ((r.doclet id).declare identity mode) := by
    rw [doclet_update_self (by rw [declare, size_note, size_update]; exact hid), declare,
      doclet_note, doclet_update_self hid]
  constructor
  case pending =>
    rw [hself, hf]
    simp [Tag.entry?, h, PendingAncestor.ranked, Doclet.declare]
  case declared =>
    rw [hself, hf]
    simp [Tag.entry?, h, Doclet.declare]
  case paramsOnly =>
    rw [hself, hf]
    simp [Tag.mark?, h]
  case ignored =>
    simp [Tag.problem?, h, update, declare, note]
  case overrides =>
    simp [Tag.overrides, h, declare]
  case rest =>
    rw [hself, hf]
    rfl
  case others =>
    intro x hx
    rw [doclet_update_of_ne hx, declare, doclet_note, doclet_update_of_ne hx]
  case tables => rfl
  case dropped => rfl

/-- An override of code without an identity does nothing. -/
theorem tagsApplied_override_of_unidentified (h : tag.reading titles = .override)
    (hcode : (r.doclet id).codeId.getD [] = []) : TagsApplied titles id [tag] r r where
  pending := by simp [Tag.entry?, h, PendingAncestor.ranked]
  declared := by simp [Tag.entry?, h]
  paramsOnly := by simp [Tag.mark?, h, hcode]
  ignored := by simp [Tag.problem?, h]
  overrides code := by
    refine ⟨Or.inl, ?_⟩
    rintro (hmem | ⟨hsome, hne, -⟩)
    · exact hmem
    · rw [hsome] at hcode
      exact absurd hcode hne
  rest := rfl
  others _ _ := rfl
  tables := rfl
  dropped := rfl

/-- An override of code with an identity clears the mark and lists the code. -/
theorem tagsApplied_override {code : Text} (h : tag.reading titles = .override)
    (hcode : (r.doclet id).codeId = some code) (hne : code ≠ [])
    (hself : r'.doclet id = (r.doclet id).markParamsOnly false)
    (hothers : ∀ x, x ≠ id → r'.doclet x = r.doclet x)
    (hregistry : r'.registry = r.registry.addOverride code) (hignored : r'.ignored = r.ignored)
    (hdropped : r'.dropped = r.dropped) : TagsApplied titles id [tag] r r' := by
  constructor
  case pending => simp [hself, Tag.entry?, h, PendingAncestor.ranked, Doclet.markParamsOnly]
  case declared => simp [hself, Tag.entry?, h, Doclet.markParamsOnly]
  case paramsOnly => simp [hself, Tag.mark?, h, hcode, hne, Doclet.markParamsOnly]
  case ignored => simp [hignored, Tag.problem?, h]
  case overrides =>
    intro code'
    rw [hregistry, Registry.mem_overrides_addOverride, hcode, Option.some.injEq]
    refine or_congr_right ⟨?_, fun hcode' => hcode'.1.symm⟩
    rintro rfl
    exact ⟨rfl, hne, tag, List.mem_singleton.mpr rfl, by simp [Tag.overrides, h]⟩
  case rest =>
    rw [hself]
    rfl
  case others => exact hothers
  case tables =>
    rw [hregistry]
    rfl
  case dropped => exact hdropped

/-- What one tag does. -/
theorem tagsApplied_applyTag (h : settings.titles.Distinct) (hid : id < r.doclets.size)
    (tag : Tag) : TagsApplied settings.titles id [tag] r (applyTag settings id r tag) := by
  unfold applyTag
  rw [InheritTag.judge_dictionary h]
  cases hreading : tag.reading settings.titles with
  | foreign => exact .of_foreign hreading
  | malformed problem => exact tagsApplied_malformed hreading _
  | ancestor identity mode =>
    obtain ⟨-, hword⟩ := Tag.hasValue_of_reading hreading
    obtain ⟨_, -, hfirst⟩ := Tag.isFirstWord_of_reading hreading
    have hne : identity.isEmpty = false := by simpa using hfirst.ne_nil
    cases mode with
    | paramsOnly =>
      simp only [TagReading.verdict, perform, hword, hne, Bool.false_eq_true, if_false]
      exact tagsApplied_ancestor hreading hid fun _ => rfl
    | full =>
      simp only [TagReading.verdict, perform, hword, hne, Bool.false_eq_true, if_false]
      refine tagsApplied_ancestor hreading hid fun d => ?_
      unfold Doclet.addLink
      split <;> rfl
  | override =>
    simp only [TagReading.verdict, perform]
    split
    · next hcode => exact tagsApplied_override_of_unidentified hreading (by rw [hcode]; rfl)
    · next hcode => exact tagsApplied_override_of_unidentified hreading (by rw [hcode]; rfl)
    · next code hne hcode =>
      exact tagsApplied_override hreading hcode hne (doclet_update_self hid)
        (fun _ hx => doclet_update_of_ne hx) rfl rfl rfl

/-- What many tags do. -/
theorem tagsApplied_foldl_applyTag (h : settings.titles.Distinct) (hid : id < r.doclets.size)
    (tags : List Tag) :
    TagsApplied settings.titles id tags r (tags.foldl (applyTag settings id) r) := by
  induction tags generalizing r with
  | nil => exact .refl _ _ _
  | cons tag tags ih =>
    have hsize : (applyTag settings id r tag).doclets.size = r.doclets.size :=
      (declares_applyTag tag).size
    exact (tagsApplied_applyTag h hid tag).trans (ih (by rw [hsize]; exact hid))

end Run

/-- A configuration with texts as titles, which differ when they are lower-cased, is read; and then
the tags of any doclet do what each of them asks for, in order, whatever was recorded before. -/
theorem Config.Titled.tagsApplied {config : Config} {params doc override : Text}
    (h : config.Titled params doc override)
    (hdistinct : (Titles.lowered params doc override).Distinct) :
    ∃ settings, Settings.ofConfig config = .ok settings ∧
      ∀ (r : Run) (id : DocletId), id < r.doclets.size →
        Run.TagsApplied (.lowered params doc override) id (r.doclet id).tags r
            (r.applyTags settings id) ∧
          ∀ tag ∈ (r.doclet id).tags,
            ∀ e ∈ tag.entry? (.lowered params doc override),
              ∃ value, tag.value = some value ∧ e.1.IsFirstWord value := by
  obtain ⟨settings, hsettings, htitles, -⟩ := h.exists_settings
  refine ⟨settings, hsettings, fun r id hid => ⟨?_, ?_⟩⟩
  · rw [← htitles] at hdistinct ⊢
    exact Run.tagsApplied_foldl_applyTag hdistinct hid _
  · intro tag _ e he
    unfold Tag.entry? at he
    split at he
    · next hreading =>
      cases he
      exact Tag.isFirstWord_of_reading hreading
    · cases he

/-- A doclet on which tags of all sorts stand, some of them malformed, under titles in any case. -/
def Doclet.inscribed : Doclet where
  longname := "D"
  codeId := some "c"
  tags := [⟨"override", none⟩, ⟨"InheritDoc", some " A of old"⟩, ⟨"inheritparams", some " "⟩,
    ⟨"author", some "B"⟩, ⟨"Override", some "B"⟩, ⟨"inheritparams", some "B"⟩]
  declared := 1

theorem Config.titled_defaults :
    Config.Titled defaults "inheritparams" "inheritdoc" "override" :=
  ⟨⟨_, rfl, rfl, rfl, rfl⟩⟩

/-- Two tags name ancestors, two are ignored, one asks for an override, and the last one that names
an ancestor wants parameters only. -/
theorem Config.Titled.tagsApplied_inscribed :
    ∃ settings, Settings.ofConfig Config.defaults = .ok settings ∧
      (((Run.start [.inscribed]).applyTags settings 0).doclet 0).pending =
        [⟨"A", .full, 1⟩, ⟨"B", .paramsOnly, 2⟩] ∧
      ((Run.start [.inscribed]).applyTags settings 0).ignored =
        [⟨some "D", "inheritparams", .needsValue⟩, ⟨some "D", "Override", .refusesValue⟩] ∧
      Text.ofString "c" ∈ ((Run.start [.inscribed]).applyTags settings 0).registry.overrides ∧
      (((Run.start [.inscribed]).applyTags settings 0).doclet 0).inheritParamsOnly = true := by
  have hdistinct : (Titles.lowered "inheritparams" "inheritdoc" "override").Distinct :=
    ⟨by decide, by decide, by decide⟩
  obtain ⟨settings, hsettings, happly⟩ := Config.titled_defaults.tagsApplied hdistinct
  obtain ⟨happlied, -⟩ := happly (Run.start [.inscribed]) 0 (by decide)
  refine ⟨settings, hsettings, ?_, ?_, ?_, ?_⟩
  · rw [happlied.pending]
    decide
  · rw [happlied.ignored]
    decide
  · rw [happlied.overrides]
    exact Or.inr ⟨rfl, by decide, by decide⟩
  · rw [happlied.paramsOnly]
    decide

end DocLineage
