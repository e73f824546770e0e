import DocLineage.Proofs.ArrivalOrder
import DocLineage.Proofs.Precedence
import DocLineage.Proofs.Recording
import Mathlib

/-!
# Nothing documented is lost

What a doclet documents when it is loaded is there when the run is over, at its place. Whatever else
it documents in the end is a copy of what one of its complete ancestors documents, and it documents
all that can be had: a slot stays undocumented only if none of these ancestors documents it.

Which slots these are depends on the doclets and on the ancestors that they record, and on nothing
else. So it does not depend on the order of arrival as long as every override finds the same to
extend; an override that comes before its class records nothing, and misses what it could inherit.

## Main definitions

* `Resolution.Ended` — a run over fresh doclets of different names, at its end
* `Resolution.Source`, `Resolution.Ended.sources` — what the doclets bring into a run

## Main results

* `Param.getElem?_fill`, `Doclet.getElem?_params_replay` — entries that are no placeholders stay at
  their places
* `Execution.isSome_documented?_iff` — which slots a doclet documents in the end
* `Resolution.Ended.induction_completed` — what carries over from its ancestors to each doclet is
  true of all that is complete
* `Resolution.Ended.slots_of_documented` — nothing is lost, nothing made up, and nothing missed
* `Resolution.Ended.not_slots_of_reorders` — what is missed where an override comes before its class
-/

namespace DocLineage

/-! ### Entries stay at their places -/

namespace Param

open Doclet (findParam?)

variable {own ancestor params : List Param} {name : Text} {entry p q : Param} {placeholder : Value}
  {signature : List Text} {i : Nat}

/-- Where a placeholder is replaced, the other entries stay at their places. -/
theorem getElem?_replace (hfound : findParam? params name = some q) (hq : q.synthesized = true)
    (hi : params[i]? = some p) (hp : p.synthesized = false) :
    (replace name entry params)[i]? = some p := by
  unfold findParam? at hfound
  induction params generalizing i with
  | nil => cases hi
  | cons x xs ih =>
    rw [List.find?_cons] at hfound
    rw [replace]
    cases hx : x.name == name with
    | true =>
      -- the first entry of the name is a placeholder, and so it is not the one at the place
      rw [hx] at hfound
      cases hfound
      cases i with
      | zero =>
        cases hi
        rw [hq] at hp
        cases hp
      | succ i => exact hi
    | false =>
      rw [hx] at hfound
      cases i with
      | zero => exact hi
      | succ i => exact ih hfound hi

theorem getElem?_slot (hi : own[i]? = some p) (hp : p.synthesized = false) :
    (slot ancestor placeholder own name)[i]? = some p := by
  have hlt : i < own.length := (List.getElem?_eq_some_iff.mp hi).1
  unfold slot
  cases hown : findParam? own name with
  | none =>
    cases findParam? ancestor name with
    | none => rw [List.getElem?_append_left hlt, hi]
    | some inherited => rw [List.getElem?_append_left hlt, hi]
  | some q =>
    cases findParam? ancestor name with
    | none => exact hi
    | some inherited =>
      cases hq : q.synthesized with
      | true => simpa [hq] using getElem?_replace hown hq hi hp
      | false => simpa [hq] using hi

/-- Filling a signature leaves all entries but placeholders at their places. -/
theorem getElem?_fill (hi : own[i]? = some p) (hp : p.synthesized = false) :
    (fill ancestor placeholder signature own)[i]? = some p := by
  unfold fill
  split
  · exact hi
  · induction signature generalizing own with
    | nil => exact hi
    | cons n ns ih => exact ih (getElem?_slot hi hp)

end Param

namespace Doclet

variable {d : Doclet} {placeholder : Value} {read : DocletId → Doclet} {ms : List Merge} {p : Param}
  {i : Nat} {slot : Slot} {mode : InheritMode} {rank : Int} {ancestor : Doclet}

/-- Merges leave all entries but placeholders at their places. -/
theorem getElem?_params_replay (hi : d.params[i]? = some p) (hp : p.synthesized = false) :
    (d.replay placeholder read ms).params[i]? = some p := by
  induction ms generalizing d with
  | nil => exact hi
  | cons m ms ih =>
    refine ih ?_
    rw [params_inherit]
    exact Param.getElem?_fill hi hp

/-- A parameter that is not in the signature is not inherited. -/
theorem documented?_inherit_of_not (h : ¬d.HasSlot slot) :
    (d.inherit ancestor mode placeholder rank).documented? slot = d.documented? slot := by
  cases slot with
  | param name =>
    rw [documented?, params_inherit, Param.fill]
    split
    · rfl
    · have hname : name ∉ d.paramNames := h
      rw [Param.documented?_foldl_slot, if_neg hname, Option.or_none, documented?]
  | returns => exact absurd trivial h

theorem documented?_replay_of_not (h : ¬d.HasSlot slot) :
    (d.replay placeholder read ms).documented? slot = d.documented? slot := by
  induction ms generalizing d with
  | nil => rfl
  | cons m ms ih =>
    have hnot : ¬(d.inherit (read m.ancestor) m.entry.mode placeholder m.entry.rank).HasSlot slot :=
      fun h' => h (hasSlot_inherit.mp h')
    exact (ih hnot).trans (documented?_inherit_of_not h)

end Doclet

/-! ### The slots of a doclet -/

namespace Execution

variable {settings : Settings} {r₀ r : Run} {as : List Arrival} {a : Arrival} {ps : List Pass}
  {ws : List Wake} {busy : Option DocletId} {slot : Slot} {entry : slot.Entry} {p : Param} {i : Nat}

/-- The entries that a doclet was loaded with are at their places, unless they are placeholders. -/
theorem getElem?_params (h : Execution settings r₀ as ps r ws busy) (ha : a ∈ as)
    (hi : (r₀.doclet a.id).params[i]? = some p) (hp : p.synthesized = false) :
    (r.doclet a.id).params[i]? = some p := by
  rw [h.replays.replayed a ha]
  refine Doclet.getElem?_params_replay ?_ hp
  rw [(h.declares a ha).2.params]
  exact hi

/-- A parameter that is not in the signature of a doclet is what it was. -/
theorem documented?_of_not (h : Execution settings r₀ as ps r ws busy) (ha : a ∈ as)
    (hslot : ¬(r₀.doclet a.id).HasSlot slot) :
    (r.doclet a.id).documented? slot = (r₀.doclet a.id).documented? slot := by
  have hdeclares := (h.declares a ha).2
  rw [h.documented?_eq_replay ha,
    Doclet.documented?_replay_of_not (fun h' => hslot (hdeclares.hasSlot.mp h')),
    hdeclares.documented?]

/-- A doclet keeps what it documents itself. -/
theorem documented?_of_own (h : Execution settings r₀ as ps r ws busy) (ha : a ∈ as)
    (hown : (r₀.doclet a.id).documented? slot = some entry) :
    (r.doclet a.id).documented? slot = some entry := by
  by_cases hslot : (r₀.doclet a.id).HasSlot slot
  · rw [h.documented?_eq_merges ha hslot, hown, Option.some_or]
  · rw [h.documented?_of_not ha hslot, hown]

/-- When names do not repeat, what the merges bring is what the declarations offer. -/
theorem exists_merge_iff (h : Execution settings r₀ as ps r [] none) (hnames : NamesDistinct as)
    (ha : a ∈ as) :
    (∃ m ∈ mergesInto ps a.id, (r.doclet m.ancestor).documented? slot = some entry) ↔
      ∃ e ∈ a.declared.pending, r.offered? slot e = some entry := by
  have hperm := h.perm_mergesInto hnames ha
  constructor
  · rintro ⟨m, hm, hentry⟩
    obtain ⟨he, hget⟩ := Registry.mem_mergesOf.mp (hperm.mem_iff.mp hm)
    refine ⟨m.entry, he, ?_⟩
    rw [Run.offered?, hget, Option.bind_some, hentry]
  · rintro ⟨e, he, hentry⟩
    obtain ⟨x, hget, hentry⟩ := Option.bind_eq_some_iff.mp hentry
    exact ⟨⟨x, e⟩, hperm.mem_iff.mpr (Registry.mem_mergesOf.mpr ⟨he, hget⟩), hentry⟩

/-- What a doclet did not document itself is what a declaration offers. -/
theorem exists_offered (h : Execution settings r₀ as ps r [] none) (hnames : NamesDistinct as)
    (ha : a ∈ as) (hown : (r₀.doclet a.id).documented? slot = none)
    (hentry : (r.doclet a.id).documented? slot = some entry) :
    ∃ e ∈ a.declared.pending, r.offered? slot e = some entry := by
  by_cases hslot : (r₀.doclet a.id).HasSlot slot
  · rw [h.documented?_eq_merges ha hslot, hown, Option.none_or] at hentry
    obtain ⟨m, hm, hentry⟩ := List.exists_of_findSome?_eq_some hentry
    exact (h.exists_merge_iff hnames ha).mp ⟨m, hm, hentry⟩
  · rw [h.documented?_of_not ha hslot, hown] at hentry
    cases hentry

/-- A doclet documents a slot of its own in the end if it did so from the start, or if a declaration
offers anything. -/
theorem isSome_documented?_iff (h : Execution settings r₀ as ps r [] none)
    (hnames : NamesDistinct as) (ha : a ∈ as) (hslot : (r₀.doclet a.id).HasSlot slot) :
    ((r.doclet a.id).documented? slot).isSome = true ↔
      ((r₀.doclet a.id).documented? slot).isSome = true ∨
        ∃ e ∈ a.declared.pending, (r.offered? slot e).isSome = true := by
  have hmerge : (∃ m ∈ mergesInto ps a.id,
      ((r.doclet m.ancestor).documented? slot).isSome = true) ↔
      ∃ e ∈ a.declared.pending, (r.offered? slot e).isSome = true := by
    constructor
    · rintro ⟨m, hm, hsome⟩
      obtain ⟨entry, hentry⟩ := Option.isSome_iff_exists.mp hsome
      obtain ⟨e, he, hoffered⟩ := (h.exists_merge_iff hnames ha).mp ⟨m, hm, hentry⟩
      exact ⟨e, he, Option.isSome_iff_exists.mpr ⟨entry, hoffered⟩⟩
    · rintro ⟨e, he, hsome⟩
      obtain ⟨entry, hentry⟩ := Option.isSome_iff_exists.mp hsome
      obtain ⟨m, hm, hdocumented⟩ := (h.exists_merge_iff hnames ha).mpr ⟨e, he, hentry⟩
      exact ⟨m, hm, Option.isSome_iff_exists.mpr ⟨entry, hdocumented⟩⟩
  rw [h.documented?_eq_merges ha hslot, Option.isSome_or, Bool.or_eq_true,
    List.findSome?_isSome_iff, hmerge]

end Execution

/-! ### A run at its end -/

namespace Resolution

/-- A run over fresh doclets of different names that has come to its end without a fault. -/
structure Ended where
  settings : Settings
  doclets : List Doclet
  run : Run
  fresh : ∀ d ∈ doclets, d.IsFresh
  names : DistinctNames doclets
  ended : runAll settings doclets = (run, none)

/-- What a doclet brings into a run: the doclet as it is loaded, and the ancestors that it records
when it arrives. -/
structure Source where
  loaded : Doclet
  recorded : List PendingAncestor

/-- The name of a source, with the names of its ancestors. -/
def Source.declaration (s : Source) : Text × List Text :=
  (s.loaded.longname, s.recorded.map PendingAncestor.identity)

namespace Ended

variable {c c' : Ended} {id id' x : DocletId} {slot : Slot} {n : Text}

/-- The places of the doclets that take part in the run. -/
def documented (c : Ended) : List DocletId := Resolution.documented c.settings c.doclets

/-- What the doclet at a place brings into the run. -/
def source (c : Ended) (id : DocletId) : Source :=
  ⟨(Run.start c.doclets).doclet id, recorded c.settings c.doclets id⟩

/-- What the doclets bring into the run, in source order. -/
def sources (c : Ended) : List Source := c.documented.map c.source

theorem execution (c : Ended) : Execution c.settings (Run.start c.doclets)
    (c.documented.map (arrival c.settings c.doclets)) (passes c.settings c.doclets) c.run [] none :=
  Resolution.execution c.fresh c.ended

theorem namesDistinct (c : Ended) :
    NamesDistinct (c.documented.map (arrival c.settings c.doclets)) :=
  c.names.arrivals c.execution

theorem arrival_mem (hid : id ∈ c.documented) : arrival c.settings c.doclets id ∈
    c.documented.map (arrival c.settings c.doclets) :=
  List.mem_map_of_mem hid

theorem documented?_of_not (hid : id ∈ c.documented) (hslot : ¬(c.source id).loaded.HasSlot slot) :
    (c.run.doclet id).documented? slot = (c.source id).loaded.documented? slot := by
  have hsame := c.execution.documented?_of_not (arrival_mem hid) hslot
  exact hsame

/-- Which of its slots a doclet documents in the end. -/
theorem isSome_documented?_iff (hid : id ∈ c.documented)
    (hslot : (c.source id).loaded.HasSlot slot) :
    ((c.run.doclet id).documented? slot).isSome = true ↔
      ((c.source id).loaded.documented? slot).isSome = true ∨
        ∃ e ∈ (c.source id).recorded, (c.run.offered? slot e).isSome = true := by
  have hiff := c.execution.isSome_documented?_iff c.namesDistinct (arrival_mem hid) hslot
  exact hiff

/-! ### What is complete -/

theorem declarations_eq_map :
    declarations c.settings c.doclets = c.sources.map Source.declaration := by
  rw [sources, List.map_map]
  rfl

theorem isLeast_completed_keys (c : Ended) :
    IsLeast {names | Closed (c.sources.map Source.declaration) names}
      {n | n ∈ c.run.registry.completed.keys} := by
  rw [← declarations_eq_map]
  exact isLeast_keys_completed c.fresh c.ended

/-- Where names do not repeat, a name tells the place of its doclet. -/
theorem eq_of_longname (hid : id ∈ c.documented) (hx : x ∈ c.documented)
    (heq : (c.source id).loaded.longname = (c.source x).loaded.longname)
    (hne : (c.source id).loaded.longname ≠ []) : id = x :=
  c.names.eq_of_longname (lt_length_of_documented hid) (lt_length_of_documented hx) heq hne

/-- What is complete under a name is the doclet of that name. -/
theorem of_get?_completed (hget : c.run.registry.completed.get? n = some x) :
    x ∈ c.documented ∧ (c.source x).loaded.longname = n ∧ n ≠ [] := by
  obtain ⟨hne, harrived, hname, -⟩ := c.execution.linked.completed n x hget
  obtain ⟨a, ha, rfl⟩ := List.mem_map.mp harrived
  have hlongname := c.execution.linked.longname a ha
  rw [(c.execution.declares a ha).2.longname, hname] at hlongname
  obtain ⟨y, hy, rfl⟩ := List.mem_map.mp ha
  exact ⟨hy, hlongname.symm, hne⟩

/-- What is true of a doclet when it is true of its complete ancestors is true of all doclets that
are complete. -/
theorem induction_completed {P : DocletId → Prop}
    (hstep : ∀ id ∈ c.documented, (∀ e ∈ (c.source id).recorded, ∀ x,
      c.run.registry.completed.get? e.identity = some x → P x) → P id)
    (hget : c.run.registry.completed.get? n = some x) : P x := by
  -- the names of the doclets of which it is true are closed
  have hclosed : Closed (c.sources.map Source.declaration)
      {k | k ∈ c.run.registry.completed.keys ∧
        ∀ y, c.run.registry.completed.get? k = some y → P y} := by
    intro d hd hne hall
    refine ⟨c.isLeast_completed_keys.1 d hd hne fun k hk => (hall k hk).1, fun y hy => ?_⟩
    obtain ⟨s, hs, rfl⟩ := List.mem_map.mp hd
    obtain ⟨id, hid, rfl⟩ := List.mem_map.mp hs
    obtain ⟨hdocumented, hname, -⟩ := of_get?_completed hy
    obtain rfl := eq_of_longname hid hdocumented hname.symm hne
    exact hstep id hid fun e he => (hall _ (List.mem_map_of_mem he)).2
  have hn : n ∈ c.run.registry.completed.keys := by
    rw [← Table.contains_iff, Table.contains, hget]
    rfl
  exact (c.isLeast_completed_keys.2 hclosed hn).2 x hget

/-! ### The order of arrival -/

/-- Runs into which the same doclets are brought complete the same names. -/
theorem mem_completed_of_sources (hsame : ∀ s, s ∈ c.sources ↔ s ∈ c'.sources)
    (hn : n ∈ c.run.registry.completed.keys) : n ∈ c'.run.registry.completed.keys := by
  refine c.isLeast_completed_keys.2 (fun d hd => c'.isLeast_completed_keys.1 d ?_) hn
  obtain ⟨s, hs, rfl⟩ := List.mem_map.mp hd
  exact List.mem_map_of_mem ((hsame s).mp hs)

/-- What a doclet of the one run documents in a slot, every doclet that brings the same into the
other one documents as well. -/
def CarriesOver (c c' : Ended) (slot : Slot) (id : DocletId) : Prop :=
  ∀ id' ∈ c'.documented, c.source id = c'.source id' →
    ((c.run.doclet id).documented? slot).isSome = true →
      ((c'.run.doclet id').documented? slot).isSome = true

/-- What an ancestor offers in the one run it offers in the other one as well. -/
theorem isSome_offered?_of_carriesOver (hsame : ∀ s, s ∈ c.sources ↔ s ∈ c'.sources)
    {e : PendingAncestor}
    (hancestor : ∀ x, c.run.registry.completed.get? e.identity = some x → c.CarriesOver c' slot x)
    (hsome : (c.run.offered? slot e).isSome = true) :
    (c'.run.offered? slot e).isSome = true := by
  obtain ⟨entry, hentry⟩ := Option.isSome_iff_exists.mp hsome
  obtain ⟨x, hget, hx⟩ := Option.bind_eq_some_iff.mp hentry
  obtain ⟨hdocumented, hname, hne⟩ := of_get?_completed hget
  -- the ancestor takes part in the other run, and is complete there
  obtain ⟨x', hx', hsource⟩ := List.mem_map.mp ((hsame _).mp (List.mem_map_of_mem hdocumented))
  have hn : e.identity ∈ c.run.registry.completed.keys := by
    rw [← Table.contains_iff, Table.contains, hget]
    rfl
  have hn' := mem_completed_of_sources hsame hn
  rw [← Table.contains_iff, Table.contains] at hn'
  obtain ⟨y, hget'⟩ := Option.isSome_iff_exists.mp hn'
  obtain ⟨hy, hname', -⟩ := of_get?_completed hget'
  have hxname : (c'.source x').loaded.longname = e.identity := by rw [hsource, hname]
  obtain rfl := eq_of_longname hx' hy (hxname.trans hname'.symm) (by rw [hxname]; exact hne)
  have hcarried := hancestor x hget x' hx' hsource.symm (Option.isSome_iff_exists.mpr ⟨entry, hx⟩)
  rw [Run.offered?, hget', Option.bind_some]
  exact hcarried

/-- What is documented carries over from the ancestors of a doclet to the doclet. -/
theorem carriesOver_of_ancestors (hsame : ∀ s, s ∈ c.sources ↔ s ∈ c'.sources)
    (hid : id ∈ c.documented)
    (hancestors : ∀ e ∈ (c.source id).recorded, ∀ x,
      c.run.registry.completed.get? e.identity = some x → c.CarriesOver c' slot x) :
    c.CarriesOver c' slot id := by
  intro id' hid' hsource hsome
  by_cases hslot : (c.source id).loaded.HasSlot slot
  · rw [isSome_documented?_iff hid hslot] at hsome
    rw [isSome_documented?_iff hid' (hsource ▸ hslot), ← hsource]
    rcases hsome with hown | ⟨e, he, hoffered⟩
    · exact Or.inl hown
    · exact Or.inr ⟨e, he, isSome_offered?_of_carriesOver hsame (hancestors e he) hoffered⟩
  · rw [documented?_of_not hid hslot] at hsome
    rw [documented?_of_not hid' (hsource ▸ hslot), ← hsource]
    exact hsome

/-- Runs into which the same doclets are brought document the same slots. -/
theorem carriesOver_of_sources (hsame : ∀ s, s ∈ c.sources ↔ s ∈ c'.sources)
    (hid : id ∈ c.documented) : c.CarriesOver c' slot id := by
  refine carriesOver_of_ancestors hsame hid fun e _ x hget => ?_
  exact induction_completed (fun id hid hancestors =>
    carriesOver_of_ancestors hsame hid hancestors) hget

/-- In another order a doclet brings the same into the run, if the overrides find the same. -/
theorem source_of_reorders {place : Equiv.Perm DocletId} (hsettings : c'.settings = c.settings)
    (hplace : Reorders place c.doclets c'.doclets)
    (hagree : OverridesAgree c.settings place c.doclets c'.doclets) (hid : id ∈ c.documented) :
    c'.source (place id) = c.source id := by
  have hended' : (runAll c.settings c'.doclets).2 = none := by
    rw [← hsettings, c'.ended]
  rw [source, source, hplace.doclet_start (lt_length_of_documented hid), hsettings,
    recorded_of_reorders c.fresh hplace hagree (congrArg Prod.snd c.ended) hended' hid]

theorem mem_documented_of_reorders {place : Equiv.Perm DocletId}
    (hsettings : c'.settings = c.settings) (hplace : Reorders place c.doclets c'.doclets) :
    place id ∈ c'.documented ↔ id ∈ c.documented := by
  rw [documented, documented, hsettings]
  exact hplace.mem_documented_iff

theorem mem_sources_of_reorders {place : Equiv.Perm DocletId}
    (hsettings : c'.settings = c.settings) (hplace : Reorders place c.doclets c'.doclets)
    (hagree : OverridesAgree c.settings place c.doclets c'.doclets) (s : Source) :
    s ∈ c.sources ↔ s ∈ c'.sources := by
  unfold sources
  constructor
  · intro h
    obtain ⟨id, hid, rfl⟩ := List.mem_map.mp h
    exact List.mem_map.mpr ⟨place id, (mem_documented_of_reorders hsettings hplace).mpr hid,
      source_of_reorders hsettings hplace hagree hid⟩
  · intro h
    obtain ⟨id', hid', rfl⟩ := List.mem_map.mp h
    obtain ⟨id, rfl⟩ := place.surjective id'
    have hid := (mem_documented_of_reorders hsettings hplace).mp hid'
    exact List.mem_map.mpr ⟨id, hid, (source_of_reorders hsettings hplace hagree hid).symm⟩

/-- Runs into which the same doclets are brought document the same slots. -/
theorem isSome_documented?_eq (hsame : ∀ s, s ∈ c.sources ↔ s ∈ c'.sources)
    (hid : id ∈ c.documented) (hid' : id' ∈ c'.documented) (hsource : c.source id = c'.source id') :
    ((c.run.doclet id).documented? slot).isSome =
      ((c'.run.doclet id').documented? slot).isSome := by
  rw [Bool.eq_iff_iff]
  constructor
  · exact carriesOver_of_sources hsame hid id' hid' hsource
  · exact carriesOver_of_sources (fun s => (hsame s).symm) hid' id hid hsource.symm

/-- No documentation is lost or overwritten. What a doclet was loaded with is there in the end:
every parameter that is no placeholder at its place, and the return values if there are any. A slot
that it did not document is documented in the end exactly if some ancestor that it has recorded and
that is complete documents it, and then by a copy of what one of these documents. So which slots are
documented depends on what is loaded and recorded alone; and it is the same in every order of
arrival in which the overrides find the same to extend. -/
theorem slots_of_documented (c : Ended) :
    (∀ id ∈ c.documented,
      (∀ (i : Nat) (p : Param), (c.source id).loaded.params[i]? = some p →
        p.synthesized = false → (c.run.doclet id).params[i]? = some p) ∧
      (∀ rs, (c.source id).loaded.returns = some rs → rs ≠ [] →
        (c.run.doclet id).returns = some rs) ∧
      ∀ slot, (c.source id).loaded.HasSlot slot →
        (((c.run.doclet id).documented? slot).isSome = true ↔
          ((c.source id).loaded.documented? slot).isSome = true ∨
            ∃ e ∈ (c.source id).recorded, (c.run.offered? slot e).isSome = true) ∧
        ∀ entry, (c.source id).loaded.documented? slot = none →
          (c.run.doclet id).documented? slot = some entry →
          ∃ e ∈ (c.source id).recorded, c.run.offered? slot e = some entry) ∧
    (∀ c' : Ended, (∀ s, s ∈ c.sources ↔ s ∈ c'.sources) →
      ∀ id ∈ c.documented, ∀ id' ∈ c'.documented, c.source id = c'.source id' →
        ∀ slot, ((c.run.doclet id).documented? slot).isSome =
          ((c'.run.doclet id').documented? slot).isSome) ∧
    ∀ (c' : Ended) (place : Equiv.Perm DocletId), c'.settings = c.settings →
      Reorders place c.doclets c'.doclets →
      OverridesAgree c.settings place c.doclets c'.doclets →
      ∀ id ∈ c.documented, ∀ slot, ((c.run.doclet id).documented? slot).isSome =
        ((c'.run.doclet (place id)).documented? slot).isSome := by
  refine ⟨fun id hid => ?_, fun c' hsame id hid id' hid' hsource slot =>
    isSome_documented?_eq hsame hid hid' hsource, ?_⟩
  · have ha := arrival_mem hid
    refine ⟨fun i p hi hp => c.execution.getElem?_params ha hi hp, ?_, ?_⟩
    · intro rs hreturns hne
      have hown : (c.source id).loaded.documented? .returns = some rs := by
        rw [Doclet.documented?, hreturns, Option.filter_some, if_pos (by simpa using hne)]
      have hkept := c.execution.documented?_of_own ha hown
      rw [Doclet.documented?, Option.filter_eq_some_iff] at hkept
      exact hkept.1
    · intro slot hslot
      exact ⟨isSome_documented?_iff hid hslot, fun entry hown hentry =>
        c.execution.exists_offered c.namesDistinct ha hown hentry⟩
  · intro c' place hsettings hplace hagree id hid slot
    exact isSome_documented?_eq (mem_sources_of_reorders hsettings hplace hagree) hid
      ((mem_documented_of_reorders hsettings hplace).mpr hid)
      (source_of_reorders hsettings hplace hagree hid).symm

/-- A run under the standard settings, which comes to its end in any case. -/
def standard (doclets : List Doclet) (fresh : ∀ d ∈ doclets, d.IsFresh)
    (names : DistinctNames doclets) : Ended :=
  ⟨.standard, doclets, (runAll .standard doclets).1, fresh, names,
    Prod.ext rfl (snd_runAll Settings.canJoin_standard doclets)⟩

/-- What a doclet that overrides no member brings into a run does not depend on the run. -/
theorem source_of_not_overriding (c : Ended) (hid : id ∈ c.documented)
    (h : ((Run.start c.doclets).doclet id).overriding c.settings
      ((Run.start c.doclets).doclet id).tags = none) :
    c.source id = ⟨(Run.start c.doclets).doclet id,
      (((Run.start c.doclets).doclet id).applyTags c.settings).pending⟩ := by
  rw [source, recorded_of_not_overriding c.fresh (congrArg Prod.snd c.ended)
    (lt_length_of_documented hid) h]

theorem sources_of_not_overriding (c : Ended)
    (h : ∀ id ∈ c.documented, ((Run.start c.doclets).doclet id).overriding c.settings
      ((Run.start c.doclets).doclet id).tags = none) :
    c.sources = c.documented.map fun id => ⟨(Run.start c.doclets).doclet id,
      (((Run.start c.doclets).doclet id).applyTags c.settings).pending⟩ :=
  List.map_congr_left fun id hid => c.source_of_not_overriding hid (h id hid)

/-- A doclet with a parameter of its own that lacks two others. -/
def collector : Doclet :=
  { Doclet.tagged "D" [⟨"inheritparams", "A"⟩, ⟨"inheritparams", "B"⟩] with
    paramNames := ["x", "y", "z"]
    params := [{ name := "z", description := .text "own" }] }

/-- An ancestor with the second one of the parameters. -/
def ofA : Doclet := (Doclet.tagged "A" []).documenting "y" "of A"

/-- An ancestor with the first one. -/
def ofB : Doclet := (Doclet.tagged "B" []).documenting "x" "of B"

theorem isFresh_collector : collector.IsFresh :=
  { Doclet.isFresh_tagged "D" [⟨"inheritparams", "A"⟩, ⟨"inheritparams", "B"⟩] with }

/-- The collector comes first, and is taken up for each of the others. -/
def collectorFirst : Ended :=
  standard [collector, ofA, ofB]
    (by simp [isFresh_collector, ofA, ofB, Doclet.isFresh_tagged, Doclet.IsFresh.documenting])
    (by decide)

/-- The collector comes between the others. -/
def collectorBetween : Ended :=
  standard [ofB, collector, ofA]
    (by simp [isFresh_collector, ofA, ofB, Doclet.isFresh_tagged, Doclet.IsFresh.documenting])
    (by decide)

theorem sources_collectorFirst : collectorFirst.sources =
    [⟨collector, [⟨"A", .paramsOnly, 0⟩, ⟨"B", .paramsOnly, 1⟩]⟩, ⟨ofA, []⟩, ⟨ofB, []⟩] := by
  rw [sources_of_not_overriding _ (by decide)]
  rfl

theorem sources_collectorBetween : collectorBetween.sources =
    [⟨ofB, []⟩, ⟨collector, [⟨"A", .paramsOnly, 0⟩, ⟨"B", .paramsOnly, 1⟩]⟩, ⟨ofA, []⟩] := by
  rw [sources_of_not_overriding _ (by decide)]
  rfl

/-- The placeholder of the parameter has given way to the entry of the ancestor that came last. -/
theorem documented?_collectorFirst :
    (collectorFirst.run.doclet 0).documented? (.param "x") =
      some { name := "x", description := .text "of B" } := by
  cbv

/-- A member of a class, with its parameter documented. -/
def ofP : Doclet := (Doclet.tagged "P#m" []).documenting "x" "of P"

/-- The member of a class that extends this one, with the same parameter in its signature. -/
def heir : Doclet := { member with paramNames := ["x"] }

theorem isFresh_ofP : ofP.IsFresh := (Doclet.isFresh_tagged _ _).documenting _ _

theorem isFresh_heir : heir.IsFresh := { isFresh_member with }

/-- The member comes after its class, and after the member that it overrides. -/
def memberLast : Ended :=
  standard [.tagged "P" [], ofP, subclass, heir]
    (by simp [isFresh_heir, isFresh_subclass, isFresh_ofP, Doclet.isFresh_tagged])
    (by decide)

/-- The class comes before the member that is overridden. -/
def classSooner : Ended :=
  standard [.tagged "P" [], subclass, ofP, heir]
    (by simp [isFresh_heir, isFresh_subclass, isFresh_ofP, Doclet.isFresh_tagged])
    (by decide)

/-- The class comes last. -/
def classLast : Ended :=
  standard [.tagged "P" [], ofP, heir, subclass]
    (by simp [isFresh_heir, isFresh_subclass, isFresh_ofP, Doclet.isFresh_tagged])
    (by decide)

theorem documented?_memberLast : (memberLast.run.doclet 3).documented? (.param "x") =
    some { name := "x", description := .text "of P" } := by
  cbv

/-- The parameter that the collector was loaded with is first in its list, another one is a copy of
what an ancestor offers, and the collector has it in the other order of arrival as well. So has an
override, if its class comes before it in both. -/
theorem slots_of_documented_collector :
    (∀ s, s ∈ collectorFirst.sources ↔ s ∈ collectorBetween.sources) ∧
      (collectorFirst.run.doclet 0).params[0]? =
        some { name := "z", description := .text "own" } ∧
      (∃ e ∈ (collectorFirst.source 0).recorded, collectorFirst.run.offered? (.param "x") e =
        some { name := "x", description := .text "of B" }) ∧
      ((collectorBetween.run.doclet 1).documented? (.param "x")).isSome = true ∧
      OverridesAgree .standard (Equiv.swap 1 2) memberLast.doclets classSooner.doclets ∧
      ((classSooner.run.doclet 3).documented? (.param "x")).isSome = true := by
  have hsame : ∀ s, s ∈ collectorFirst.sources ↔ s ∈ collectorBetween.sources := by
    intro s
    rw [sources_collectorFirst, sources_collectorBetween]
    simp only [List.mem_cons, List.not_mem_nil, or_false]
    tauto
  have hfirst : 0 ∈ collectorFirst.documented := by decide
  have hbetween : 1 ∈ collectorBetween.documented := by decide
  have hsource : collectorFirst.source 0 = collectorBetween.source 1 := by
    rw [source_of_not_overriding _ hfirst (by decide),
      source_of_not_overriding _ hbetween (by decide)]
    rfl
  obtain ⟨hslots, horder, -⟩ := slots_of_documented collectorFirst
  obtain ⟨hparams, -, hdocumented⟩ := hslots 0 hfirst
  have hx : (collectorFirst.source 0).loaded.HasSlot (.param "x") := List.mem_cons_self
  have hown : (collectorFirst.source 0).loaded.documented? (.param "x") = none := rfl
  -- in these two orders the class is there when its member arrives
  have hagree :
      OverridesAgree .standard (Equiv.swap 1 2) memberLast.doclets classSooner.doclets := by
    decide
  obtain ⟨-, -, hreordered⟩ := slots_of_documented memberLast
  have hheir := hreordered classSooner (Equiv.swap 1 2) rfl
    (reorders_swap [.tagged "P" []] [heir] ofP subclass) hagree 3 (by decide) (.param "x")
  refine ⟨hsame, hparams 0 _ rfl rfl, ?_, ?_, hagree, ?_⟩
  · exact (hdocumented _ hx).2 _ hown documented?_collectorFirst
  · rw [← horder collectorBetween hsame 0 hfirst 1 hbetween hsource, documented?_collectorFirst]
    rfl
  · rw [documented?_memberLast] at hheir
    exact hheir.symm

/-- An override that comes before its class misses what it inherits where it comes after it. -/
theorem not_slots_of_reorders : ¬∀ (c c' : Ended) (place : Equiv.Perm DocletId),
    c'.settings = c.settings → Reorders place c.doclets c'.doclets →
    ∀ id ∈ c.documented, ∀ slot, ((c.run.doclet id).documented? slot).isSome =
      ((c'.run.doclet (place id)).documented? slot).isSome := by
  intro h
  have hlast : (classLast.run.doclet 2).documented? (.param "x") = none := by cbv
  have hsame := h memberLast classLast (Equiv.swap 2 3) rfl
    (reorders_swap [.tagged "P" [], ofP] [] subclass heir) 3 (by decide) (.param "x")
  rw [Equiv.swap_apply_right, documented?_memberLast, hlast] at hsame
  cases hsame

end Ended

end Resolution

end DocLineage
