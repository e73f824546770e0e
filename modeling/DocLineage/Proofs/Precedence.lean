import DocLineage.Proofs.History
import DocLineage.Proofs.Signature
import Mathlib

/-!
# Which ancestor documents a parameter

Parameters and return values are kept by whichever merge brings them first. A pass merges the last
declared ancestor first, so that within one pass the later declaration takes precedence; but what
one pass has brought is not replaced by the next one. So the last declared ancestor takes precedence
only if it is complete by the first pass that finds any ancestor that documents the slot, or if it
has nothing else to say.

## Main definitions

* `Slot`, `Doclet.documented?` — a parameter or the return values, and what a doclet documents there
* `Run.offered?` — what the ancestor of a declaration documents in a slot
* `Pass.brought?` — what a pass brings into a slot

## Main results

* `Doclet.documented?_replay` — the first merge that has an entry for a slot decides it
* `Resolution.documented?_iff_firstPass` — when the last declared ancestor takes precedence
* `Resolution.not_lastDeclared` — it does not always do so
-/

namespace DocLineage

/-- What a doclet can document besides its prose. -/
inductive Slot where
  /-- A parameter of the name. -/
  | param (name : Text)
  /-- The return values. -/
  | returns

/-- What stands in a slot. -/
abbrev Slot.Entry : Slot → Type
  | .param _ => Param
  | .returns => List Return

namespace Doclet

/-- The doclet has the slot: every doclet may return something, but only the parameters of its
signature are inherited. -/
def HasSlot (d : Doclet) : Slot → Prop
  | .param name => name ∈ d.paramNames
  | .returns => True

/-- What a doclet documents in a slot. -/
def documented? (d : Doclet) : (slot : Slot) → Option slot.Entry
  | .param name => Param.documented? d.params name
  | .returns => d.returns.filter fun rs => !rs.isEmpty

variable {d d' ancestor : Doclet} {mode : InheritMode} {placeholder : Value} {rank : Int}
  {slot : Slot} {entries : List PendingAncestor}

theorem documented?_inheritReturns (own ancestor : Option (List Return)) :
    (inheritReturns own ancestor).filter (fun rs => !rs.isEmpty) =
      (own.filter fun rs => !rs.isEmpty).or (ancestor.filter fun rs => !rs.isEmpty) := by
  match own with
  | none => rfl
  | some [] => rfl
  | some (_ :: _) => rfl

/-- A merge keeps what is documented, and takes what the ancestor documents otherwise. -/
theorem documented?_inherit (h : d.HasSlot slot) :
    (d.inherit ancestor mode placeholder rank).documented? slot =
      (d.documented? slot).or (ancestor.documented? slot) := by
  cases slot with
  | param name =>
    rw [documented?, params_inherit]
    exact Param.documented?_fill h
  | returns =>
    rw [documented?, returns_inherit]
    exact documented?_inheritReturns _ _

theorem hasSlot_inherit :
    (d.inherit ancestor mode placeholder rank).HasSlot slot ↔ d.HasSlot slot := by
  cases slot with
  | param name => rw [HasSlot, paramNames_inherit, HasSlot]
  | returns => exact Iff.rfl

/-- The first merge that has an entry for a slot decides it. -/
theorem documented?_replay (h : d.HasSlot slot) (read : DocletId → Doclet) (ms : List Merge) :
    (d.replay placeholder read ms).documented? slot =
      (d.documented? slot).or (ms.findSome? fun m => (read m.ancestor).documented? slot) := by
  induction ms generalizing d with
  | nil => exact Option.or_none.symm
  | cons m ms ih =>
    rw [replay, List.foldl_cons, ← replay, ih (hasSlot_inherit.mpr h), documented?_inherit h,
      Option.or_assoc, List.findSome?_cons]
    cases (read m.ancestor).documented? slot <;> rfl

/-- Declaring ancestors leaves the slots alone. -/
theorem Declares.documented? (h : d.Declares d' entries) :
    d'.documented? slot = d.documented? slot := by
  rw [h.eq]
  cases slot <;> rfl

theorem Declares.hasSlot (h : d.Declares d' entries) : d'.HasSlot slot ↔ d.HasSlot slot := by
  rw [h.eq]
  cases slot <;> exact Iff.rfl

end Doclet

/-- A doclet with one parameter, and a description of it. -/
def Doclet.documenting (d : Doclet) (name description : Text) : Doclet :=
  { d with paramNames := [name], params := [{ name, description := .text description }] }

theorem Doclet.IsFresh.documenting {d : Doclet} (h : d.IsFresh) (name description : Text) :
    (d.documenting name description).IsFresh :=
  { h with }

/-- What the ancestor of a declaration documents in a slot, if it is complete. -/
def Run.offered? (r : Run) (slot : Slot) (e : PendingAncestor) : Option slot.Entry :=
  (r.registry.completed.get? e.identity).bind fun x => (r.doclet x).documented? slot

/-- What a pass brings into a slot: what the first ancestor documents, in the order of merging, that
documents it at all. Ancestors are as they are in the run. -/
def Pass.brought? (r : Run) (slot : Slot) (p : Pass) : Option slot.Entry :=
  p.merges.findSome? fun m => (r.doclet m.ancestor).documented? slot

theorem findSome?_flatMap {α β γ : Type} (f : α → List β) (g : β → Option γ) (l : List α) :
    (l.flatMap f).findSome? g = l.findSome? fun a => (f a).findSome? g := by
  induction l with
  | nil => rfl
  | cons a l ih =>
    rw [List.flatMap_cons, List.findSome?_append, ih, List.findSome?_cons]
    cases (f a).findSome? g <;> rfl

theorem findSome?_congr {α β : Type} {f g : α → Option β} {l : List α}
    (h : ∀ a ∈ l, f a = g a) : l.findSome? f = l.findSome? g := by
  induction l with
  | nil => rfl
  | cons a l ih =>
    rw [List.findSome?_cons, List.findSome?_cons, h a List.mem_cons_self,
      ih fun a' ha' => h a' (List.mem_cons_of_mem a ha')]

namespace Execution

variable {settings : Settings} {r₀ r : Run} {as : List Arrival} {a : Arrival} {ps : List Pass}
  {ws : List Wake} {busy : Option DocletId} {slot : Slot}

/-- What a doclet documents is what the merges so far have made of it. -/
theorem documented?_eq_replay (h : Execution settings r₀ as ps r ws busy) (ha : a ∈ as) :
    (r.doclet a.id).documented? slot = (a.declared.replay settings.placeholder r.doclet
      (mergesInto ps a.id)).documented? slot := by
  conv_lhs => rw [h.replays.replayed a ha]
  cases slot <;> rfl

/-- The first merge that brings anything into a slot decides it, unless the doclet documents the
slot itself. -/
theorem documented?_eq_merges (h : Execution settings r₀ as ps r ws busy) (ha : a ∈ as)
    (hslot : (r₀.doclet a.id).HasSlot slot) : (r.doclet a.id).documented? slot =
      ((r₀.doclet a.id).documented? slot).or
        ((mergesInto ps a.id).findSome? fun m => (r.doclet m.ancestor).documented? slot) := by
  have hdeclares := (h.declares a ha).2
  rw [h.documented?_eq_replay ha, Doclet.documented?_replay (hdeclares.hasSlot.mpr hslot),
    hdeclares.documented?]

/-- The first pass that brings anything into a slot decides it, unless the doclet documents the slot
itself. -/
theorem documented?_eq (h : Execution settings r₀ as ps r ws busy) (ha : a ∈ as)
    (hslot : (r₀.doclet a.id).HasSlot slot) : (r.doclet a.id).documented? slot =
      ((r₀.doclet a.id).documented? slot).or
        ((passesOver ps a.id).findSome? (Pass.brought? r slot)) := by
  rw [h.documented?_eq_merges ha hslot, mergesInto, findSome?_flatMap]
  rfl

end Execution

/-- In a part of a list that holds an element, nothing before the element is found that is not found
before it in the list. -/
theorem findSome?_of_sublist {α β : Type} {f : α → Option β} {l before after : List α} {a : α}
    {b : β} (h : l.Sublist (before ++ a :: after)) (ha : a ∈ l) (hafter : a ∉ after)
    (hb : f a = some b) (hbefore : ∀ x ∈ before, f x = none) : l.findSome? f = some b := by
  obtain ⟨l₁, l₂, rfl, h₁, h₂⟩ := List.sublist_append_iff.mp h
  have hnone : l₁.findSome? f = none :=
    List.findSome?_eq_none_iff.mpr fun x hx => hbefore x (h₁.subset hx)
  rw [List.findSome?_append, hnone, Option.none_or]
  cases h₂ with
  | cons _ h₂ =>
    -- the element would have to come before itself, where nothing is found
    rcases List.mem_append.mp ha with ha | ha
    · rw [hbefore a (h₁.subset ha)] at hb
      cases hb
    · exact absurd (h₂.subset ha) hafter
  | cons_cons _ h₂ => rw [List.findSome?_cons, hb]

namespace Execution

variable {settings : Settings} {r₀ r : Run} {as : List Arrival} {a : Arrival} {p : Pass}
  {ps : List Pass} {slot : Slot} {entry : slot.Entry} {e : PendingAncestor}
  {before after : List PendingAncestor}

/-- When names do not repeat, what a pass brings into a slot is what the declarations that it serves
say, in the order of merging. -/
theorem brought?_eq (h : Execution settings r₀ as ps r [] none) (hnames : NamesDistinct as)
    (hp : p ∈ ps) :
    p.brought? r slot = (p.merges.map Merge.entry).findSome? (r.offered? slot) := by
  rw [Pass.brought?, List.findSome?_map]
  have hsame : ∀ m ∈ p.merges, (r.doclet m.ancestor).documented? slot =
      r.offered? slot m.entry := by
    intro m hm
    have hget := h.get?_completed_of_mem_mergesInto hnames (mem_mergesInto.mpr ⟨p, hp, rfl, hm⟩)
    rw [Run.offered?, hget]
    rfl
  exact findSome?_congr hsame

/-- A pass that merges the last declared ancestor that documents a slot brings its entry. -/
theorem brought?_of_mem (h : Execution settings r₀ as ps r [] none) (hnames : NamesDistinct as)
    (ha : a ∈ as) (hp : p ∈ ps) (hdoclet : p.doclet = a.id)
    (hdeclared : a.declared.pending = before ++ e :: after)
    (he : r.offered? slot e = some entry)
    (hafter : ∀ e' ∈ after, r.offered? slot e' = none)
    (hmem : e ∈ p.merges.map Merge.entry) : p.brought? r slot = some entry := by
  have hsublist := h.replays.order a ha p hp hdoclet
  rw [hdeclared, List.reverse_append, List.reverse_cons, List.append_assoc, List.singleton_append]
    at hsublist
  -- ranks increase along the declarations, so that none of them comes twice
  have honce : e ∉ before.reverse := by
    intro hbefore
    have hranks := (h.declares a ha).2.pairwise_rank
    rw [hdeclared, List.pairwise_append] at hranks
    have hlt := hranks.2.2 e (List.mem_reverse.mp hbefore) e List.mem_cons_self
    exact absurd hlt (Int.lt_irrefl _)
  rw [h.brought?_eq hnames hp]
  refine findSome?_of_sublist hsublist hmem honce he fun e' he' => ?_
  exact hafter e' (List.mem_reverse.mp he')

end Execution

namespace Resolution

variable {settings : Settings} {doclets : List Doclet} {run : Run} {id : DocletId} {slot : Slot}
  {entry : slot.Entry} {e : PendingAncestor} {before after : List PendingAncestor}

/-- If a doclet is complete that does not document a slot itself, the first pass over it that brings
anything into the slot decides. The last declared ancestor that documents the slot takes precedence
exactly if that pass brings the same entry; so it does if that pass merges this ancestor. -/
theorem documented?_iff_firstPass (hfresh : ∀ d ∈ doclets, d.IsFresh)
    (hnames : DistinctNames doclets) (hrun : runAll settings doclets = (run, none))
    (hid : id ∈ documented settings doclets) (hcomplete : (run.doclet id).pending = [])
    (hslot : ((Run.start doclets).doclet id).HasSlot slot)
    (hown : ((Run.start doclets).doclet id).documented? slot = none)
    (hrecorded : recorded settings doclets id = before ++ e :: after)
    (he : run.offered? slot e = some entry)
    (hafter : ∀ e' ∈ after, run.offered? slot e' = none) :
    ∃ earlier p later, passesOver (passes settings doclets) id = earlier ++ p :: later ∧
      (∀ q ∈ earlier, q.brought? run slot = none) ∧ (p.brought? run slot).isSome = true ∧
      ((run.doclet id).documented? slot = some entry ↔ p.brought? run slot = some entry) ∧
      ((∃ m ∈ p.merges, m.entry = e) → (run.doclet id).documented? slot = some entry) := by
  have h := execution hfresh hrun
  have hdistinct := hnames.arrivals h
  have ha : arrival settings doclets id ∈
      (documented settings doclets).map (arrival settings doclets) := List.mem_map_of_mem hid
  have hbrings : ∀ p ∈ passes settings doclets, p.doclet = id → e ∈ p.merges.map Merge.entry →
      p.brought? run slot = some entry := fun p hp hdoclet =>
    h.brought?_of_mem hdistinct ha hp hdoclet hrecorded he hafter
  have hfinal := h.documented?_eq ha hslot
  rw [show (arrival settings doclets id).id = id from rfl, hown, Option.none_or] at hfinal
  -- all declarations have been merged, so that some pass brings something
  have hmem : e ∈ recorded settings doclets id := by
    rw [hrecorded]
    exact List.mem_append_right _ List.mem_cons_self
  obtain ⟨p₀, hp₀, hdoclet₀, hmem₀⟩ := h.exists_pass_of_complete ha hcomplete hmem
  have hsome : ((passesOver (passes settings doclets) id).findSome?
      (Pass.brought? run slot)).isSome = true := by
    rw [List.findSome?_isSome_iff]
    refine ⟨p₀, mem_passesOver.mpr ⟨hp₀, hdoclet₀⟩, ?_⟩
    rw [hbrings p₀ hp₀ hdoclet₀ hmem₀]
    rfl
  -- the first pass that does so decides the slot
  obtain ⟨first, hfirst⟩ := Option.isSome_iff_exists.mp hsome
  obtain ⟨earlier, p, later, hsplit, hp, hearlier⟩ := List.findSome?_eq_some_iff.mp hfirst
  refine ⟨earlier, p, later, hsplit, hearlier, ?_, ?_, ?_⟩
  · rw [hp]
    rfl
  · rw [hfinal, hfirst, hp]
  · rintro ⟨m, hm, rfl⟩
    have hpass : p ∈ passesOver (passes settings doclets) id := by
      rw [hsplit]
      exact List.mem_append_right _ List.mem_cons_self
    obtain ⟨hpass, hdoclet⟩ := mem_passesOver.mp hpass
    rw [hfinal, hfirst, ← hp]
    exact hbrings p hpass hdoclet (List.mem_map_of_mem hm)

/-- A doclet that inherits a parameter from two ancestors, which become complete one by one in the
order in which it has declared them. -/
def oneByOne : List Doclet :=
  [{ Doclet.tagged "D" [⟨"inheritparams", "A"⟩, ⟨"inheritparams", "B"⟩] with paramNames := ["x"] },
    (Doclet.tagged "A" []).documenting "x" "of A",
    (Doclet.tagged "B" []).documenting "x" "of B"]

theorem isFresh_oneByOne : ∀ d ∈ oneByOne, d.IsFresh := by
  have hd : ∀ (tags : List (Text × Text)) (names : List Text),
      ({ Doclet.tagged "D" tags with paramNames := names } : Doclet).IsFresh := fun tags _ =>
    { Doclet.isFresh_tagged "D" tags with }
  simp [oneByOne, Doclet.isFresh_tagged, Doclet.IsFresh.documenting, hd]

theorem recorded_oneByOne : recorded .standard oneByOne 0 =
    [⟨"A", .paramsOnly, 0⟩] ++ ⟨"B", .paramsOnly, 1⟩ :: [] := by
  decide +kernel

/-- The doclet keeps the parameter of the ancestor that was complete first, though the other one
documents it as well and was declared later. -/
theorem values_oneByOne : (((runAll .standard oneByOne).1.doclet 0).pending,
    (runAll .standard oneByOne).1.offered? (.param "x") ⟨"B", .paramsOnly, 1⟩,
    ((runAll .standard oneByOne).1.doclet 0).documented? (.param "x")) =
    ([], some { name := "x", description := .text "of B" },
      some { name := "x", description := .text "of A" }) := by
  cbv

/-- The first pass that brings the parameter decides, before the last declared ancestor that
documents it is complete. -/
theorem documented?_iff_firstPass_oneByOne :
    (∀ d ∈ oneByOne, d.IsFresh) ∧ DistinctNames oneByOne ∧ (runAll .standard oneByOne).2 = none ∧
      0 ∈ documented .standard oneByOne ∧ ((runAll .standard oneByOne).1.doclet 0).pending = [] ∧
      ((Run.start oneByOne).doclet 0).HasSlot (.param "x") ∧
      ((Run.start oneByOne).doclet 0).documented? (.param "x") = none ∧
      recorded .standard oneByOne 0 = [⟨"A", .paramsOnly, 0⟩] ++ ⟨"B", .paramsOnly, 1⟩ :: [] ∧
      (runAll .standard oneByOne).1.offered? (.param "x") ⟨"B", .paramsOnly, 1⟩ =
        some { name := "x", description := .text "of B" } ∧
      ∃ earlier p later, passesOver (passes .standard oneByOne) 0 = earlier ++ p :: later ∧
        p.brought? (runAll .standard oneByOne).1 (.param "x") ≠
          some { name := "x", description := .text "of B" } ∧
        ¬∃ m ∈ p.merges, m.entry = ⟨"B", .paramsOnly, 1⟩ := by
  have hnone : (runAll .standard oneByOne).2 = none :=
    snd_runAll Settings.canJoin_standard oneByOne
  obtain ⟨hcomplete, he, hfinal⟩ := by
    simpa only [Prod.mk.injEq] using values_oneByOne
  have hnames : DistinctNames oneByOne := by decide
  have hid : 0 ∈ documented .standard oneByOne := by decide
  have hslot : ((Run.start oneByOne).doclet 0).HasSlot (.param "x") := List.mem_singleton.mpr rfl
  have hown : ((Run.start oneByOne).doclet 0).documented? (.param "x") = none := rfl
  obtain ⟨earlier, p, later, hsplit, -, -, hiff, hmerged⟩ :=
    documented?_iff_firstPass isFresh_oneByOne hnames (Prod.ext rfl hnone) hid hcomplete hslot hown
      recorded_oneByOne he nofun
  have hne : ((runAll .standard oneByOne).1.doclet 0).documented? (.param "x") ≠
      some { name := "x", description := .text "of B" } := by
    rw [hfinal]
    simp
  exact ⟨isFresh_oneByOne, hnames, hnone, hid, hcomplete, hslot, hown, recorded_oneByOne, he,
    earlier, p, later, hsplit, fun hp => hne (hiff.mpr hp), fun hp => hne (hmerged hp)⟩

/-- The last declared ancestor that documents a slot does not always take precedence. -/
theorem not_lastDeclared : ¬∀ (settings : Settings) (doclets : List Doclet) (run : Run)
    (id : DocletId) (slot : Slot) (entry : slot.Entry) (e : PendingAncestor)
    (before after : List PendingAncestor),
    (∀ d ∈ doclets, d.IsFresh) → DistinctNames doclets → runAll settings doclets = (run, none) →
    id ∈ documented settings doclets → (run.doclet id).pending = [] →
    ((Run.start doclets).doclet id).HasSlot slot →
    ((Run.start doclets).doclet id).documented? slot = none →
    recorded settings doclets id = before ++ e :: after →
    run.offered? slot e = some entry →
    (∀ e' ∈ after, run.offered? slot e' = none) →
    (run.doclet id).documented? slot = some entry := by
  intro hlast
  have hnone : (runAll .standard oneByOne).2 = none :=
    snd_runAll Settings.canJoin_standard oneByOne
  obtain ⟨hcomplete, he, hfinal⟩ := by
    simpa only [Prod.mk.injEq] using values_oneByOne
  have hwrong := hlast .standard oneByOne _ 0 (.param "x") _ _ _ _ isFresh_oneByOne (by decide)
    (Prod.ext rfl hnone) (by decide) hcomplete (List.mem_singleton.mpr rfl) rfl recorded_oneByOne he
    nofun
  rw [hfinal] at hwrong
  simp at hwrong

end Resolution

end DocLineage
