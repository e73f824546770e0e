import DocLineage.Proofs.Pass
import DocLineage.Resolution.Arrival

/-!
# Declaring ancestors

The first half of an arrival: the tags of a doclet are applied and its override is expanded. All
that this does to the doclets is to record declarations on the one that arrives, and all that it
does to the tables is to leave no override behind.

## Main definitions

* `Settings.CanJoin` — every scope has a text that joins a member to its class
* `Doclet.Declares` — a doclet with further declarations recorded on it
* `Run.Declares` — a run in which one doclet has recorded further declarations
* `Run.declareAncestors` — the first half of an arrival

## Main results

* `Run.declares_declareAncestors` — the first half of an arrival records declarations only
* `Run.overrides_declareAncestors` — it leaves no override behind
* `Run.feed_eq` — an arrival is its first half, followed by a pass and what that sets off
* `Run.snd_feed` — an arrival fails only where members cannot be joined to their classes
-/

namespace DocLineage

/-- Every scope has a text that joins a member to its class. -/
def Settings.CanJoin (settings : Settings) : Prop :=
  ∃ separators, settings.separators = .ok separators ∧
    ∀ scope, ∃ t, (separators.of scope).toText = .ok t

theorem Settings.canJoin_standard : Settings.standard.CanJoin := by
  refine ⟨_, rfl, fun scope => ?_⟩
  unfold Separators.of Mapping.get?
  simp only [Mapping.find?_cons, Mapping.find?_nil]
  -- whatever is found for the scope, it is a text
  split_ifs <;> exact ⟨_, rfl⟩

/-- A doclet with declarations recorded on it: the entries come after what was pending, ranked by
their place among all declarations of the doclet. -/
structure Doclet.Declares (d d' : Doclet) (entries : List PendingAncestor) : Prop where
  eq : d' = { d with
    see := d'.see
    inheritParamsOnly := d'.inheritParamsOnly
    enclosing := d'.enclosing
    pending := d.pending ++ entries
    declared := d.declared + entries.length }
  ranks : entries.map PendingAncestor.rank = (List.range' d.declared entries.length).map Int.ofNat

namespace Doclet

variable {d d' d'' : Doclet} {entries entries' : List PendingAncestor}

theorem Declares.pending (h : d.Declares d' entries) : d'.pending = d.pending ++ entries := by
  rw [h.eq]

theorem Declares.declared (h : d.Declares d' entries) :
    d'.declared = d.declared + entries.length := by
  rw [h.eq]

/-- Declarations are ranked in order. -/
theorem Declares.pairwise_rank (h : d.Declares d' entries) :
    entries.Pairwise fun e e' => e.rank < e'.rank := by
  have hranks : (entries.map PendingAncestor.rank).Pairwise (· < ·) := by
    rw [h.ranks, List.pairwise_map]
    refine List.Pairwise.imp ?_ (List.pairwise_lt_range' (s := d.declared))
    exact fun hlt => Int.ofNat_lt.mpr hlt
  exact List.pairwise_map.mp hranks

theorem Declares.longname (h : d.Declares d' entries) : d'.longname = d.longname := by
  rw [h.eq]

theorem Declares.params (h : d.Declares d' entries) : d'.params = d.params := by
  rw [h.eq]

theorem Declares.returns (h : d.Declares d' entries) : d'.returns = d.returns := by
  rw [h.eq]

theorem Declares.paramNames (h : d.Declares d' entries) : d'.paramNames = d.paramNames := by
  rw [h.eq]

theorem Declares.codeId (h : d.Declares d' entries) : d'.codeId = d.codeId := by
  rw [h.eq]

/-- A change to the links and the marks of a doclet declares nothing. -/
theorem Declares.of_eq (h : d' = { d with
    see := d'.see
    inheritParamsOnly := d'.inheritParamsOnly
    enclosing := d'.enclosing }) : d.Declares d' [] := by
  refine ⟨?_, rfl⟩
  rw [List.append_nil]
  exact h

theorem Declares.refl (d : Doclet) : d.Declares d [] := .of_eq rfl

theorem Declares.trans (h : d.Declares d' entries) (h' : d'.Declares d'' entries') :
    d.Declares d'' (entries ++ entries') := by
  constructor
  · rw [h'.eq, h.eq]
    simp only [List.append_assoc, List.length_append, Nat.add_assoc]
  · rw [List.map_append, h.ranks, h'.ranks, h.declared, ← List.map_append, List.length_append,
      List.range'_append_1]

theorem declares_declare (ancestor : Text) (mode : InheritMode) :
    d.Declares (d.declare ancestor mode) [⟨ancestor, mode, d.declared⟩] :=
  ⟨rfl, rfl⟩

theorem declares_addLink (wanted : Bool) (target : Text) :
    d.Declares (d.addLink wanted target) [] := by
  apply Declares.of_eq
  unfold addLink
  split <;> rfl

theorem declares_markParamsOnly (mark : Bool) : d.Declares (d.markParamsOnly mark) [] :=
  .of_eq rfl

end Doclet

/-- A run in which one doclet has recorded further declarations, and nothing else has happened to
the doclets or to the tables of completion. -/
structure Run.Declares (id : DocletId) (r r' : Run) : Prop where
  size : r'.doclets.size = r.doclets.size
  doclet_of_ne : ∀ id', id' ≠ id → r'.doclet id' = r.doclet id'
  completed : r'.registry.completed = r.registry.completed
  waitingFor : r'.registry.waitingFor = r.registry.waitingFor
  waiting : r'.registry.waiting = r.registry.waiting
  doclet_self : ∃ entries, (r.doclet id).Declares (r'.doclet id) entries

theorem Registry.mem_overrides_addOverride {r : Registry} {codeId c : Text} :
    c ∈ (r.addOverride codeId).overrides ↔ c ∈ r.overrides ∨ c = codeId := by
  unfold addOverride
  by_cases h : r.overrides.contains codeId = true
  · have hmem : codeId ∈ r.overrides := List.contains_iff_mem.mp h
    simp only [h, if_true]
    constructor
    · exact Or.inl
    · rintro (hc | rfl)
      · exact hc
      · exact hmem
  · simp only [h, Bool.false_eq_true, if_false, List.mem_append, List.mem_singleton]

namespace Run

variable {settings : Settings} {r r' r'' : Run} {id id' : DocletId}

theorem Declares.refl (id : DocletId) (r : Run) : Declares id r r where
  size := rfl
  doclet_of_ne _ _ := rfl
  completed := rfl
  waitingFor := rfl
  waiting := rfl
  doclet_self := ⟨[], .refl _⟩

theorem Declares.trans (h : Declares id r r') (h' : Declares id r' r'') : Declares id r r'' where
  size := h'.size.trans h.size
  doclet_of_ne id' hne := (h'.doclet_of_ne id' hne).trans (h.doclet_of_ne id' hne)
  completed := h'.completed.trans h.completed
  waitingFor := h'.waitingFor.trans h.waitingFor
  waiting := h'.waiting.trans h.waiting
  doclet_self := by
    obtain ⟨entries, hd⟩ := h.doclet_self
    obtain ⟨entries', hd'⟩ := h'.doclet_self
    exact ⟨entries ++ entries', hd.trans hd'⟩

/-- Only the doclets and the tables of completion count. -/
theorem Declares.of_eq (hdoclets : r'.doclets = r.doclets)
    (hcompleted : r'.registry.completed = r.registry.completed)
    (hwaitingFor : r'.registry.waitingFor = r.registry.waitingFor)
    (hwaiting : r'.registry.waiting = r.registry.waiting) : Declares id r r' where
  size := by rw [hdoclets]
  doclet_of_ne id' _ := by rw [doclet, hdoclets, doclet]
  completed := hcompleted
  waitingFor := hwaitingFor
  waiting := hwaiting
  doclet_self := ⟨[], by rw [doclet, doclet, hdoclets]; exact .refl _⟩

theorem declares_update {f : Doclet → Doclet}
    (h : ∀ d : Doclet, ∃ entries, d.Declares (f d) entries) : Declares id r (r.update id f) where
  size := size_update
  doclet_of_ne _ hne := doclet_update_of_ne hne
  completed := rfl
  waitingFor := rfl
  waiting := rfl
  doclet_self := by
    by_cases hid : id < r.doclets.size
    · rw [doclet_update_self hid]
      exact h _
    · have hid := Nat.le_of_not_lt hid
      rw [doclet_of_size_le hid, doclet_of_size_le (by rw [size_update]; exact hid)]
      exact ⟨[], .refl _⟩

/-! ### Tags -/

theorem declares_declare (ancestor : Text) (mode : InheritMode) :
    Declares id r (r.declare id ancestor mode) := by
  have hupdate : Declares id r (r.update id fun d => d.declare ancestor mode) :=
    declares_update fun _ => ⟨_, Doclet.declares_declare ancestor mode⟩
  exact hupdate.trans (.of_eq rfl rfl rfl rfl)

theorem declares_perform (action : InheritTag) (tag : Tag) :
    Declares id r (r.perform settings id action tag) := by
  unfold perform
  cases action with
  | params =>
    dsimp only
    split
    · exact .refl id r
    · exact (declares_declare _ _).trans
        (declares_update fun _ => ⟨_, Doclet.declares_markParamsOnly true⟩)
  | doc =>
    dsimp only
    split
    · exact .refl id r
    · exact (declares_declare _ _).trans (declares_update fun _ =>
        ⟨_, (Doclet.declares_markParamsOnly false).trans (Doclet.declares_addLink _ _)⟩)
  | override =>
    dsimp only
    split
    · exact .refl id r
    · exact .refl id r
    · -- the list of overrides is not one of the tables that count
      next codeId _ _ =>
      have hnote : Declares id r (r.note (.overrideFound tag.title (r.doclet id).name codeId)) :=
        .of_eq rfl rfl rfl rfl
      have hmark := hnote.trans
        (declares_update fun _ => ⟨_, Doclet.declares_markParamsOnly false⟩)
      exact hmark.trans (.of_eq rfl rfl rfl rfl)

theorem declares_applyTag (tag : Tag) : Declares id r (applyTag settings id r tag) := by
  unfold applyTag
  split
  · exact .refl id r
  · exact declares_perform _ tag
  · exact .of_eq rfl rfl rfl rfl

theorem declares_foldl_applyTag (tags : List Tag) :
    Declares id r (tags.foldl (applyTag settings id) r) := by
  induction tags generalizing r with
  | nil => exact .refl id r
  | cons tag tags ih => exact (declares_applyTag tag).trans ih

/-- The tags of a doclet only record declarations on it. -/
theorem declares_applyTags : Declares id r (r.applyTags settings id) :=
  declares_foldl_applyTag _

theorem Declares.codeId (h : Declares id r r') : (r'.doclet id).codeId = (r.doclet id).codeId := by
  obtain ⟨entries, hd⟩ := h.doclet_self
  exact hd.codeId

theorem mem_overrides_perform {action : InheritTag} {tag : Tag} {c : Text}
    (h : c ∈ (r.perform settings id action tag).registry.overrides) :
    c ∈ r.registry.overrides ∨ c ≠ [] ∧ (r.doclet id).codeId = some c := by
  unfold perform at h
  cases action with
  | params =>
    dsimp only at h
    split at h <;> exact Or.inl h
  | doc =>
    dsimp only at h
    split at h <;> exact Or.inl h
  | override =>
    dsimp only at h
    split at h
    · exact Or.inl h
    · exact Or.inl h
    · next codeId hne hcode =>
      rcases Registry.mem_overrides_addOverride.mp h with h | rfl
      · exact Or.inl h
      · exact Or.inr ⟨hne, hcode⟩

theorem mem_overrides_applyTag {tag : Tag} {c : Text}
    (h : c ∈ (applyTag settings id r tag).registry.overrides) :
    c ∈ r.registry.overrides ∨ c ≠ [] ∧ (r.doclet id).codeId = some c := by
  unfold applyTag at h
  split at h
  · exact Or.inl h
  · exact mem_overrides_perform h
  · exact Or.inl h

theorem mem_overrides_foldl_applyTag {tags : List Tag} {c : Text}
    (h : c ∈ (tags.foldl (applyTag settings id) r).registry.overrides) :
    c ∈ r.registry.overrides ∨ c ≠ [] ∧ (r.doclet id).codeId = some c := by
  induction tags generalizing r with
  | nil => exact Or.inl h
  | cons tag tags ih =>
    rcases ih h with h | ⟨hne, hcode⟩
    · exact mem_overrides_applyTag h
    · rw [(declares_applyTag tag).codeId] at hcode
      exact Or.inr ⟨hne, hcode⟩

/-- The tags of a doclet leave an override for no code but its own. -/
theorem mem_overrides_applyTags {c : Text}
    (h : c ∈ (r.applyTags settings id).registry.overrides) :
    c ∈ r.registry.overrides ∨ c ≠ [] ∧ (r.doclet id).codeId = some c :=
  mem_overrides_foldl_applyTag h

/-! ### Overrides -/

theorem overrides_foldl_declareMember (separator : Text) (superclasses : List Text) :
    (superclasses.foldl (declareMember settings separator id) r).registry.overrides =
      r.registry.overrides := by
  induction superclasses generalizing r with
  | nil => rfl
  | cons superclass superclasses ih => exact ih.trans rfl

/-- The expansion of an override is done with it, whatever comes of it. -/
theorem overrides_expand : (r.expand settings id).1.registry.overrides =
    r.registry.overrides.filter (· != (r.doclet id).codeId.getD []) := by
  unfold expand
  dsimp only
  split
  · rfl
  · split
    · rfl
    · split
      · rfl
      · rfl
      · exact overrides_foldl_declareMember _ _

theorem declares_declareMember (separator superclass : Text) :
    Declares id r (declareMember settings separator id r superclass) :=
  (declares_declare _ _).trans (declares_update fun _ => ⟨_, Doclet.declares_addLink _ _⟩)

theorem declares_foldl_declareMember (separator : Text) (superclasses : List Text) :
    Declares id r (superclasses.foldl (declareMember settings separator id) r) := by
  induction superclasses generalizing r with
  | nil => exact .refl id r
  | cons superclass superclasses ih => exact (declares_declareMember _ _).trans ih

/-- The expansion of an override only records declarations on the doclet. -/
theorem declares_expand : Declares id r (r.expand settings id).1 := by
  unfold expand
  dsimp only
  have hdrop : Declares id r
      { r with registry := r.registry.dropOverride ((r.doclet id).codeId.getD []) } :=
    .of_eq rfl rfl rfl rfl
  refine hdrop.trans ?_
  split
  · exact .of_eq rfl rfl rfl rfl
  · have henclosing : ∀ (r : Run) (enclosing : DocletId),
        Declares id r (r.update id fun d => { d with enclosing := some enclosing }) :=
      fun _ _ => declares_update fun _ => ⟨[], .of_eq rfl⟩
    split
    · exact henclosing _ _
    · split
      · exact henclosing _ _
      · exact henclosing _ _
      · exact (henclosing _ _).trans (declares_foldl_declareMember _ _)

/-! ### The first half of an arrival -/

/-- A doclet declares its ancestors: its tags are applied, and its override is expanded. -/
def declareAncestors (settings : Settings) (r : Run) (id : DocletId) : Run × Option Fault :=
  let r := r.applyTags settings id
  if r.wantsExpansion id then r.expand settings id else (r, none)

/-- The first half of an arrival only records declarations on the doclet. -/
theorem declares_declareAncestors : Declares id r (r.declareAncestors settings id).1 := by
  unfold declareAncestors
  dsimp only
  split
  · exact declares_applyTags.trans declares_expand
  · exact declares_applyTags

theorem declares_of_declareAncestors {fault : Option Fault}
    (h : r.declareAncestors settings id = (r', fault)) : Declares id r r' := by
  have hdeclares : Declares id r (r.declareAncestors settings id).1 := declares_declareAncestors
  rw [h] at hdeclares
  exact hdeclares

/-- The first half of an arrival leaves no override behind. -/
theorem overrides_declareAncestors (h : r.registry.overrides = []) :
    (r.declareAncestors settings id).1.registry.overrides = [] := by
  -- what the tags have put on the list is the code of the doclet, and no other
  have hown : ∀ c ∈ (r.applyTags settings id).registry.overrides,
      c ≠ [] ∧ ((r.applyTags settings id).doclet id).codeId = some c := by
    intro c hc
    rw [declares_applyTags.codeId]
    simpa [h] using mem_overrides_applyTags hc
  unfold declareAncestors
  dsimp only
  split
  · rw [overrides_expand, List.filter_eq_nil_iff]
    intro c hc
    rw [(hown c hc).2]
    simp
  · -- whoever is on the list is expanded, so that no one is if the doclet is not
    next hwants =>
    rw [List.eq_nil_iff_forall_not_mem]
    intro c hc
    apply hwants
    obtain ⟨hne, hcode⟩ := hown c hc
    unfold wantsExpansion
    rw [hcode]
    cases c with
    | nil => exact absurd rfl hne
    | cons s t => exact List.contains_iff_mem.mpr hc

/-! ### Faults -/

/-- An override that can join members to their classes is no fault. -/
theorem snd_expand (h : settings.CanJoin) : (r.expand settings id).2 = none := by
  obtain ⟨separators, hseparators, hjoin⟩ := h
  unfold expand
  dsimp only
  split
  · rfl
  · simp only [hseparators]
    split
    · rfl
    · next hfault _ =>
      obtain ⟨t, ht⟩ := hjoin _
      cases ht.symm.trans hfault
    · rfl

theorem snd_declareAncestors (h : settings.CanJoin) :
    (r.declareAncestors settings id).2 = none := by
  unfold declareAncestors
  dsimp only
  split
  · exact snd_expand h
  · rfl

/-! ### The second half of an arrival -/

/-- A doclet that declares nothing is completed as one is over which a pass is made. -/
theorem receive_eq_process : r.receive settings id = r.process settings.placeholder id := by
  unfold receive
  split
  · next h =>
    have h : (r.doclet id).pending = [] := by simpa [Doclet.isComplete] using h
    simp only [process, complete, advance, pass_of_complete h, Doclet.isComplete, h,
      List.isEmpty_nil, if_true]
  · rfl

/-- An arrival is its first half, followed by a pass and what that sets off. -/
theorem feed_eq : r.feed settings id =
    match r.declareAncestors settings id with
    | (r, some fault) => (r, some fault)
    | (r, none) => (r.process settings.placeholder id, none) := by
  simp only [feed, arrive, declareAncestors, receive_eq_process]
  split <;> rfl

/-- An arrival without a fault has none in its first half. -/
theorem declareAncestors_of_feed (hnone : (r.feed settings id).2 = none) :
    r.declareAncestors settings id = ((r.declareAncestors settings id).1, none) := by
  rw [feed_eq] at hnone
  cases hdeclared : r.declareAncestors settings id with
  | mk s fault =>
    rw [hdeclared] at hnone
    cases fault with
    | some fault => cases hnone
    | none => rfl

/-- Only an override that cannot join members to their classes makes an arrival fail. -/
theorem snd_feed (h : settings.CanJoin) : (r.feed settings id).2 = none := by
  have hfault : (r.declareAncestors settings id).2 = none := snd_declareAncestors h
  rw [feed_eq]
  split
  · next hdeclared =>
    rw [hdeclared] at hfault
    cases hfault
  · rfl

end Run

end DocLineage
