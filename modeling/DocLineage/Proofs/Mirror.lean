import DocLineage.Proofs.History
import DocLineage.Proofs.Recording

/-!
# Runs that mirror each other

A run mirrors another one when it has a counterpart for each doclet of the other, perhaps at another
place, and the tables say of the counterparts what the tables of the other say of the doclets. It
may have further doclets beside them, as long as they go by other names and neither side asks for
names of the other. Then whatever happens to a doclet happens to its counterpart, and what happens
to the doclets beside does not matter.

How far a doclet and its counterpart have to agree is left open: a mirror comes with a likeness that
the steps of a run keep, and it has to tell at least what steers a run.

## Main definitions

* `Doclet.course` — what of a doclet steers a run
* `Mirror` — the places of the counterparts, and how much they are alike
* `Mirror.Holds` — the second run mirrors the first one
* `Lockstep` — a relation of two runs that is kept when both take the same steps

## Main results

* `Mirror.Holds.advance`, `Mirror.Holds.declare` — the steps of a run and of its mirror image
* `Mirror.Holds.advance_beside`, `Mirror.Holds.declare_beside` — the steps of a doclet beside them
* `Lockstep.process` — the steps that follow from taking up a doclet
-/

namespace DocLineage

/-- What of a doclet steers a run: all of it but its documentation, the class that was found for it,
and the mapping that it was read from. -/
def Doclet.course (d : Doclet) : Doclet :=
  { d with
    description := {}, summary := {}, classdesc := {}, params := [], returns := none, see := []
    enclosing := none, raw := [] }

/-- Doclets of the same course have what belongs to it in common. -/
theorem Doclet.field_of_course {d d' : Doclet} {α : Type} (field : Doclet → α)
    (hfield : ∀ d : Doclet, field d.course = field d) (h : d'.course = d.course) :
    field d' = field d := by
  rw [← hfield d', h, hfield]

/-- The places of the counterparts in another run, and how much the doclets there are alike. -/
structure Mirror (settings : Settings) where
  place : DocletId → DocletId
  Alike : Doclet → Doclet → Prop
  /-- The names that the doclets may go by. -/
  Own : Text → Prop
  /-- The names of the doclets beside the counterparts. -/
  Foreign : Text → Prop
  disjoint : ∀ n, Own n → ¬Foreign n
  course : ∀ {d d' : Doclet}, Alike d d' → d'.course = d.course
  declare : ∀ {d d' : Doclet} (ancestor : Text) (mode : InheritMode), Alike d d' →
    Alike (d.declare ancestor mode) (d'.declare ancestor mode)
  mark : ∀ {d d' : Doclet} (mark : Bool), Alike d d' →
    Alike (d.markParamsOnly mark) (d'.markParamsOnly mark)
  link : ∀ {d d' : Doclet} (target : Text), Alike d d' →
    Alike (d.addLink settings.addsSeeLinks target) (d'.addLink settings.addsSeeLinks target)
  enclose : ∀ {d d' : Doclet} (x : DocletId), Alike d d' →
    Alike { d with enclosing := some x } { d' with enclosing := some (place x) }
  inherit : ∀ {d d' ancestor ancestor' : Doclet} (mode : InheritMode) (rank : Int),
    Alike d d' → Alike ancestor ancestor' →
    Alike (d.inherit ancestor mode settings.placeholder rank)
      (d'.inherit ancestor' mode settings.placeholder rank)
  pending : ∀ {d d' : Doclet} (pending : List PendingAncestor), Alike d d' →
    Alike { d with pending } { d' with pending }

/-- The wake-up of the counterpart. -/
def Wake.moved (place : DocletId → DocletId) (w : Wake) : Wake := ⟨place w.waiter, w.ancestor⟩

/-- The merge of the counterpart. -/
def Merge.moved (place : DocletId → DocletId) (m : Merge) : Merge := ⟨place m.ancestor, m.entry⟩

/-- The pass over the counterpart. -/
def Pass.moved (place : DocletId → DocletId) (p : Pass) : Pass :=
  ⟨place p.doclet, p.merges.map (Merge.moved place)⟩

namespace Mirror

variable {settings : Settings}

/-- The second registry says of the counterparts what the first one says of the doclets. -/
structure Tables (c : Mirror settings) (g g' : Registry) : Prop where
  completed : ∀ n, ¬c.Foreign n → g'.completed.get? n = (g.completed.get? n).map c.place
  waiting : ∀ n, ¬c.Foreign n → g'.waiting.get? n = (g.waiting.get? n).map c.place
  waiters : ∀ n, c.Own n → g'.waiters n = (g.waiters n).map c.place

/-- The second run mirrors the first one. -/
structure Holds (c : Mirror settings) (r r' : Run) : Prop where
  size : ∀ id < r.doclets.size, c.place id < r'.doclets.size
  injective : ∀ x < r.doclets.size, ∀ y < r.doclets.size, c.place x = c.place y → x = y
  alike : ∀ id < r.doclets.size, c.Alike (r.doclet id) (r'.doclet (c.place id))
  named : ∀ id < r.doclets.size, (r.doclet id).longname ≠ [] → c.Own (r.doclet id).longname
  asks : ∀ id < r.doclets.size, ∀ e ∈ (r.doclet id).pending, ¬c.Foreign e.identity
  tables : c.Tables r.registry r'.registry

variable {c : Mirror settings} {g g' : Registry} {r r' : Run} {id x : DocletId} {n : Text}
  {ks : List Text} {as as' : List Arrival} {ws ws' : List Wake} {d d' : Doclet}

/-! ### Tables -/

theorem addOnce_map {place : DocletId → DocletId} {ids : List DocletId}
    (h : ∀ x ∈ ids, place x = place id → x = id) :
    Registry.addOnce (ids.map place) (place id) = (Registry.addOnce ids id).map place := by
  have hmem : place id ∈ ids.map place ↔ id ∈ ids := by
    rw [List.mem_map]
    constructor
    · rintro ⟨x, hx, heq⟩
      exact h x hx heq ▸ hx
    · exact fun hid => ⟨id, hid, rfl⟩
  unfold Registry.addOnce
  simp only [List.contains_iff_mem, hmem]
  split
  · rfl
  · rw [List.map_append, List.map_singleton]

namespace Tables

/-- The counterpart is parked where the doclet is. -/
theorem parkAll (h : c.Tables g g')
    (hinj : ∀ k, ∀ x ∈ g.waiters k, c.place x = c.place id → x = id) :
    c.Tables (g.parkAll id n ks) (g'.parkAll (c.place id) n ks) where
  completed k hk := by
    rw [Registry.completed_parkAll, Registry.completed_parkAll]
    exact h.completed k hk
  waiting k hk := by
    rw [Registry.get?_waiting_parkAll, Registry.get?_waiting_parkAll]
    split
    · rfl
    · exact h.waiting k hk
  waiters k hk := by
    rw [Registry.waiters_parkAll, Registry.waiters_parkAll, h.waiters k hk]
    split
    · exact addOnce_map (hinj k)
    · rfl

/-- The counterpart is completed under the name of the doclet. -/
theorem settle (h : c.Tables g g') (hn : c.Own n)
    (hinj : ∀ x, g.waiting.get? n = some x → c.place x = c.place id → x = id) :
    c.Tables (g.settle id n) (g'.settle (c.place id) n) where
  completed k hk := by
    rw [Registry.get?_completed_settle, Registry.get?_completed_settle]
    split
    · rfl
    · exact h.completed k hk
  waiting k hk := by
    have hsame : g'.waiting.get? n = some (c.place id) ↔ g.waiting.get? n = some id := by
      rw [h.waiting n (c.disjoint n hn), Option.map_eq_some_iff]
      constructor
      · rintro ⟨x, hx, heq⟩
        rw [hx, hinj x hx heq]
      · exact fun hid => ⟨id, hid, rfl⟩
    rw [Registry.get?_waiting_settle, Registry.get?_waiting_settle]
    simp only [hsame]
    split
    · rfl
    · exact h.waiting k hk
  waiters k hk := by
    rw [Registry.waiters_settle, Registry.waiters_settle]
    split
    · rfl
    · exact h.waiters k hk

/-- A doclet beside the counterparts is parked under names that no doclet goes by. -/
theorem parkAll_beside (h : c.Tables g g') (hn : n ≠ [] → c.Foreign n)
    (hks : ∀ k ∈ ks, ¬c.Own k) : c.Tables g (g'.parkAll x n ks) where
  completed k hk := by
    rw [Registry.completed_parkAll]
    exact h.completed k hk
  waiting k hk := by
    rw [Registry.get?_waiting_parkAll, if_neg]
    · exact h.waiting k hk
    · rintro ⟨-, hne, rfl⟩
      exact hk (hn hne)
  waiters k hk := by
    rw [Registry.waiters_parkAll, if_neg fun hmem => hks k hmem hk]
    exact h.waiters k hk

/-- A doclet beside the counterparts is completed under a name that no doclet asks for. -/
theorem settle_beside (h : c.Tables g g') (hn : c.Foreign n) : c.Tables g (g'.settle x n) where
  completed k hk := by
    rw [Registry.get?_completed_settle, if_neg]
    · exact h.completed k hk
    · rintro rfl
      exact hk hn
  waiting k hk := by
    rw [Registry.get?_waiting_settle, if_neg]
    · exact h.waiting k hk
    · rintro ⟨rfl, -⟩
      exact hk hn
  waiters k hk := by
    rw [Registry.waiters_settle, if_neg]
    · exact h.waiters k hk
    · rintro rfl
      exact c.disjoint n hk hn

end Tables

/-! ### What a doclet and its counterpart have in common -/

/-- The counterpart inherits what the doclet does if the ancestors are counterparts as well. -/
theorem alike_replay {read read' : DocletId → Doclet} {ms : List Merge} (h : c.Alike d d')
    (hread : ∀ m ∈ ms, c.Alike (read m.ancestor) (read' (c.place m.ancestor))) :
    c.Alike (d.replay settings.placeholder read ms)
      (d'.replay settings.placeholder read' (ms.map (Merge.moved c.place))) := by
  induction ms generalizing d d' with
  | nil => exact h
  | cons m ms ih =>
    have hfirst := c.inherit m.entry.mode m.entry.rank h (hread m List.mem_cons_self)
    exact ih hfirst fun m' hm' => hread m' (List.mem_cons_of_mem m hm')

/-- What steers a run is the same on both sides. -/
theorem field_eq {α : Type} (field : Doclet → α) (hfield : ∀ d : Doclet, field d.course = field d)
    (h : c.Alike d d') : field d' = field d :=
  Doclet.field_of_course field hfield (c.course h)

theorem overriding_eq (h : c.Alike d d') :
    d'.overriding settings d'.tags = d.overriding settings d.tags := by
  have htags : d'.tags = d.tags := c.field_eq Doclet.tags (fun _ => rfl) h
  rw [htags]
  exact Doclet.overriding_congr (c.field_eq Doclet.codeId (fun _ => rfl) h) _

/-- Steps that are kept one by one are kept in a row. -/
theorem alike_foldl {α : Type} {f : Doclet → α → Doclet}
    (hf : ∀ {d d' : Doclet} (a : α), c.Alike d d' → c.Alike (f d a) (f d' a)) (as : List α)
    (h : c.Alike d d') : c.Alike (as.foldl f d) (as.foldl f d') := by
  induction as generalizing d d' with
  | nil => exact h
  | cons a as ih => exact ih (hf a h)

/-- What a tag makes happen, it makes happen to the counterpart as well. -/
theorem alike_perform (h : c.Alike d d') (action : InheritTag) (tag : Tag) :
    c.Alike (d.perform settings action tag) (d'.perform settings action tag) := by
  unfold Doclet.perform
  cases action with
  | params =>
    dsimp only
    split
    · exact h
    · exact c.mark _ (c.declare _ _ h)
  | doc =>
    dsimp only
    split
    · exact h
    · exact c.link _ (c.mark _ (c.declare _ _ h))
  | override =>
    have hcode : d'.codeId = d.codeId := c.field_eq Doclet.codeId (fun _ => rfl) h
    dsimp only
    rw [hcode]
    split
    · exact h
    · exact h
    · exact c.mark _ h

theorem alike_applyTags (h : c.Alike d d') :
    c.Alike (d.applyTags settings) (d'.applyTags settings) := by
  have htags : d'.tags = d.tags := c.field_eq Doclet.tags (fun _ => rfl) h
  unfold Doclet.applyTags
  rw [htags]
  refine c.alike_foldl (fun tag halike => ?_) d.tags h
  unfold Doclet.applyTag
  split
  · exact c.alike_perform halike _ tag
  · exact halike

theorem alike_declareMember (h : c.Alike d d') (separator superclass : Text) :
    c.Alike (d.declareMember settings separator superclass)
      (d'.declareMember settings separator superclass) := by
  have hname : d'.name = d.name := c.field_eq Doclet.name (fun _ => rfl) h
  unfold Doclet.declareMember
  rw [hname]
  exact c.link _ (c.declare _ _ h)

/-- The counterpart is expanded in the counterpart of the enclosing class, with the same fault. -/
theorem alike_expand (h : c.Alike d d') (x : DocletId) (superclasses : List Text) :
    c.Alike (d.expand settings x superclasses).1
        (d'.expand settings (c.place x) superclasses).1 ∧
      (d'.expand settings (c.place x) superclasses).2 =
        (d.expand settings x superclasses).2 := by
  have hscope : d'.scope = d.scope := c.field_eq Doclet.scope (fun _ => rfl) h
  unfold Doclet.expand
  dsimp only
  cases settings.separators with
  | error fault => exact ⟨c.enclose x h, rfl⟩
  | ok separators =>
    cases superclasses with
    | nil => exact ⟨c.enclose x h, rfl⟩
    | cons superclass superclasses =>
      have hof : separators.of d'.scope = separators.of d.scope := by rw [hscope]
      dsimp only
      rw [hof]
      cases (separators.of d.scope).toText with
      | error fault => exact ⟨c.enclose x h, rfl⟩
      | ok separator =>
        refine ⟨c.alike_foldl (fun superclass halike => ?_) _ (c.enclose x h), rfl⟩
        exact c.alike_declareMember halike separator superclass

/-- The counterpart records what the doclet does if it is told of the counterpart of the class, and
it ends the run in the same fault. -/
theorem alike_record (h : c.Alike d d') (found : Option (DocletId × List Text)) :
    c.Alike (d.record settings found).1
        (d'.record settings (found.map fun f => (c.place f.1, f.2))).1 ∧
      (d'.record settings (found.map fun f => (c.place f.1, f.2))).2 =
        (d.record settings found).2 := by
  have happlied := c.alike_applyTags h
  unfold Doclet.record
  rw [overriding_eq h]
  cases d.overriding settings d.tags with
  | none => exact ⟨happlied, rfl⟩
  | some code =>
    cases found with
    | none => exact ⟨happlied, rfl⟩
    | some found => exact c.alike_expand happlied found.1 found.2

/-- Who does not override a member records the same in any class. -/
theorem record_of_not_overriding (h : d.overriding settings d.tags = none)
    (found : Option (DocletId × List Text)) :
    d.record settings found = d.record settings none := by
  unfold Doclet.record
  rw [h]

end Mirror

/-- A completion wakes whoever waited for the name. -/
theorem Run.snd_settle {r : Run} {id : DocletId} : (r.settle id).2 =
    if (r.doclet id).longname = [] then []
    else (r.registry.waiters (r.doclet id).longname).map (⟨·, (r.doclet id).longname⟩) := by
  unfold settle
  dsimp only
  split <;> rfl

/-- Whatever has arrived is a doclet of the run. -/
theorem Linked.lt_size {as : List Arrival} {r : Run} {ws : List Wake} {busy : Option DocletId}
    {x : DocletId} (h : Linked as r ws busy) (hx : x ∈ as.map Arrival.id) :
    x < r.doclets.size := by
  obtain ⟨a, ha, rfl⟩ := List.mem_map.mp hx
  exact h.size a ha

/-- The class that is found to enclose a doclet has arrived. -/
theorem Linked.arrived_of_enclosingClass? {as : List Arrival} {r : Run} {ws : List Wake}
    {busy : Option DocletId} {id x : DocletId} (h : Linked as r ws busy)
    (hfound : r.enclosingClass? id = some x) : x ∈ as.map Arrival.id := by
  unfold Run.enclosingClass? at hfound
  split at hfound
  · cases hfound
  · cases hfound
  · next n _ _ =>
    rw [Registry.find?] at hfound
    cases hcompleted : r.registry.completed.get? n with
    | some y =>
      rw [hcompleted] at hfound
      cases hfound
      exact (h.completed n _ hcompleted).2.1
    | none =>
      rw [hcompleted] at hfound
      exact (h.waiting n _ hfound).2.1

namespace Mirror.Holds

variable {settings : Settings} {c : Mirror settings} {r r' r'' : Run} {id x : DocletId}
  {as as' : List Arrival} {ws ws' : List Wake}

/-- The journals do not count. -/
theorem note (h : c.Holds r r') (notice notice' : Notice) :
    c.Holds (r.note notice) (r'.note notice') :=
  { h with }

theorem pending_eq (h : c.Holds r r') (hid : id < r.doclets.size) :
    (r'.doclet (c.place id)).pending = (r.doclet id).pending :=
  c.field_eq Doclet.pending (fun _ => rfl) (h.alike id hid)

theorem longname_eq (h : c.Holds r r') (hid : id < r.doclets.size) :
    (r'.doclet (c.place id)).longname = (r.doclet id).longname :=
  c.field_eq Doclet.longname (fun _ => rfl) (h.alike id hid)

/-- What is not asked of the doclets beside is complete for the counterparts if it is for the
doclets. -/
theorem contains_completed (h : c.Holds r r') {n : Text} (hn : ¬c.Foreign n) :
    r'.registry.completed.contains n = r.registry.completed.contains n := by
  rw [Table.contains, h.tables.completed n hn, Option.isSome_map, Table.contains]

theorem stillPending_eq (h : c.Holds r r') (hid : id < r.doclets.size) :
    Run.stillPending r'.registry (r'.doclet (c.place id)).pending =
      Run.stillPending r.registry (r.doclet id).pending := by
  rw [h.pending_eq hid]
  refine List.filter_congr fun e he => ?_
  rw [h.contains_completed (h.asks id hid e he)]

/-- A pass over the counterpart merges the counterparts of what a pass over the doclet merges. -/
theorem merges_eq (h : c.Holds r r') (hid : id < r.doclets.size) :
    r'.merges (c.place id) = (r.merges id).map (Merge.moved c.place) := by
  unfold Run.merges Registry.mergesOf
  rw [h.pending_eq hid, List.map_filterMap]
  refine List.filterMap_congr fun e he => ?_
  rw [h.tables.completed _ (h.asks id hid e (List.mem_reverse.mp he)), Option.map_map,
    Option.map_map]
  rfl

theorem passOver_eq (h : c.Holds r r') (hid : id < r.doclets.size) :
    r'.passOver (c.place id) = (r.passOver id).moved c.place :=
  congrArg (Pass.mk (c.place id)) (h.merges_eq hid)

/-- A change of one doclet and of its counterpart, and of the tables. -/
theorem step {s s' : Run} (h : c.Holds r r') (hid : id < r.doclets.size)
    (hsize : s.doclets.size = r.doclets.size) (hsize' : s'.doclets.size = r'.doclets.size)
    (hother : ∀ x, x ≠ id → s.doclet x = r.doclet x)
    (hother' : ∀ x, x ≠ c.place id → s'.doclet x = r'.doclet x)
    (halike : c.Alike (s.doclet id) (s'.doclet (c.place id)))
    (hname : (s.doclet id).longname = (r.doclet id).longname)
    (hasks : ∀ e ∈ (s.doclet id).pending, ¬c.Foreign e.identity)
    (htables : c.Tables s.registry s'.registry) : c.Holds s s' where
  size := by rw [hsize, hsize']; exact h.size
  injective := by rw [hsize]; exact h.injective
  alike x hx := by
    rw [hsize] at hx
    by_cases heq : x = id
    · subst heq
      exact halike
    · rw [hother x heq, hother' _ fun hplace => heq (h.injective x hx id hid hplace)]
      exact h.alike x hx
  named x hx := by
    rw [hsize] at hx
    by_cases heq : x = id
    · subst heq
      rw [hname]
      exact h.named x hx
    · rw [hother x heq]
      exact h.named x hx
  asks x hx := by
    rw [hsize] at hx
    by_cases heq : x = id
    · subst heq
      exact hasks
    · rw [hother x heq]
      exact h.asks x hx
  tables := htables

/-- A change of a doclet beside the counterparts, and of the tables. -/
theorem beside (h : c.Holds r r') (hx : ∀ id < r.doclets.size, c.place id ≠ x)
    (hsize : r''.doclets.size = r'.doclets.size)
    (hother : ∀ y, y ≠ x → r''.doclet y = r'.doclet y)
    (htables : c.Tables r.registry r''.registry) : c.Holds r r'' where
  size := by rw [hsize]; exact h.size
  injective := h.injective
  alike id hid := by
    rw [hother _ (hx id hid)]
    exact h.alike id hid
  named := h.named
  asks := h.asks
  tables := htables

/-! ### Passes -/

/-- The doclet and its counterpart are alike after the pass, since what they merge is. -/
theorem alike_advance (h : c.Holds r r') (hl : Linked as r ws (some id))
    (hl' : Linked as' r' ws' (some (c.place id))) :
    c.Alike ((r.advance settings.placeholder id).1.doclet id)
      ((r'.advance settings.placeholder (c.place id)).1.doclet (c.place id)) := by
  have hid : id < r.doclets.size := hl.lt_size (hl.arrived id rfl)
  rw [hl.doclet_advance_self, hl'.doclet_advance_self, h.stillPending_eq hid, h.merges_eq hid]
  apply c.pending
  apply c.alike_replay (h.alike id hid)
  exact fun m hm => h.alike _ (hl.lt_size (hl.of_mem_merges hm).1)

/-- Both of them are parked under the same names, or complete under the same name. -/
theorem tables_advance (h : c.Holds r r') (hl : Linked as r ws (some id)) :
    c.Tables (r.advance settings.placeholder id).1.registry
      (r'.advance settings.placeholder (c.place id)).1.registry := by
  have hid : id < r.doclets.size := hl.lt_size (hl.arrived id rfl)
  have hstill := h.stillPending_eq hid
  have hname := h.longname_eq hid
  by_cases hnil : Run.stillPending r.registry (r.doclet id).pending = []
  · rw [Run.registry_advance_of_eq_nil hnil,
      Run.registry_advance_of_eq_nil (hstill.trans hnil), hname]
    split
    · exact h.tables
    · next hne =>
      refine h.tables.settle (h.named id hid hne) fun x hx => ?_
      exact h.injective x (hl.lt_size (hl.waiting _ x hx).2.1) id hid
  · rw [Run.advance_of_ne_nil hnil, Run.advance_of_ne_nil fun heq => hnil (hstill ▸ heq),
      Run.registry_pass, Run.registry_pass, hstill, hname]
    refine h.tables.parkAll fun k x hx => ?_
    exact h.injective x (hl.lt_size ((hl.listed k).2 x hx).1) id hid

/-- Whoever waited for the doclet is woken, and so are the counterparts. -/
theorem wakes_advance (h : c.Holds r r') (hid : id < r.doclets.size) (placeholder : Value) :
    (r'.advance placeholder (c.place id)).2 =
      (r.advance placeholder id).2.map (Wake.moved c.place) := by
  have hstill := h.stillPending_eq hid
  have hname := h.longname_eq hid
  by_cases hnil : Run.stillPending r.registry (r.doclet id).pending = []
  · have hstep := @Run.advance_of_eq_nil placeholder r id hnil
    have hstep' := @Run.advance_of_eq_nil placeholder r' (c.place id) (hstill.trans hnil)
    rw [hstep.1, hstep'.1, Run.snd_settle, Run.snd_settle, hstep.2, hstep'.2, Run.longname_pass,
      Run.longname_pass, hname]
    split
    · rfl
    · next hne =>
      rw [h.tables.waiters _ (h.named id hid hne), List.map_map, List.map_map]
      rfl
  · -- a doclet that goes on waiting wakes no one
    rw [Run.advance_of_ne_nil hnil, Run.advance_of_ne_nil fun heq => hnil (hstill ▸ heq)]
    rfl

/-- A pass over a doclet, with its completion, and a pass over its counterpart. -/
theorem advance (h : c.Holds r r') (hl : Linked as r ws (some id))
    (hl' : Linked as' r' ws' (some (c.place id))) :
    c.Holds (r.advance settings.placeholder id).1
        (r'.advance settings.placeholder (c.place id)).1 ∧
      (r'.advance settings.placeholder (c.place id)).2 =
        (r.advance settings.placeholder id).2.map (Wake.moved c.place) := by
  have hid : id < r.doclets.size := hl.lt_size (hl.arrived id rfl)
  refine ⟨?_, h.wakes_advance hid _⟩
  apply h.step hid Run.size_advance Run.size_advance
  case hother =>
    intro x hx
    rw [Run.doclet_advance, Run.doclet_pass_of_ne hx]
  case hother' =>
    intro x hx
    rw [Run.doclet_advance, Run.doclet_pass_of_ne hx]
  case halike => exact h.alike_advance hl hl'
  case hname => rw [Run.doclet_advance, Run.longname_pass]
  case hasks =>
    -- what is still asked for was asked for before
    intro e he
    rw [Run.doclet_advance] at he
    exact h.asks id hid e (Run.mem_pending_of_pass he)
  case htables => exact h.tables_advance hl

/-- A pass over a doclet beside the counterparts. -/
theorem advance_beside (h : c.Holds r r') (hx : ∀ id < r.doclets.size, c.place id ≠ x)
    (hname : (r'.doclet x).longname ≠ [] → c.Foreign (r'.doclet x).longname)
    (hasks : ∀ e ∈ (r'.doclet x).pending, ¬c.Own e.identity) (placeholder : Value) :
    c.Holds r (r'.advance placeholder x).1 := by
  refine h.beside hx Run.size_advance ?_ ?_
  · intro y hy
    rw [Run.doclet_advance, Run.doclet_pass_of_ne hy]
  · by_cases hnil : Run.stillPending r'.registry (r'.doclet x).pending = []
    · rw [Run.registry_advance_of_eq_nil hnil]
      split
      · exact h.tables
      · next hne => exact h.tables.settle_beside (hname hne)
    · rw [Run.advance_of_ne_nil hnil, Run.registry_pass]
      refine h.tables.parkAll_beside hname fun k hk => ?_
      obtain ⟨e, he, rfl⟩ := List.mem_map.mp (List.mem_reverse.mp hk)
      exact hasks e (List.mem_filter.mp he).1

/-! ### Arrivals -/

/-- The counterpart is told of the counterpart of the class that encloses the doclet. -/
theorem foundClass?_eq (h : c.Holds r r') (hl : Linked as r ws none) (hid : id < r.doclets.size)
    (hclass : ∀ n, (r.doclet id).memberof = some n → ¬c.Foreign n) :
    r'.foundClass? (c.place id) = (r.foundClass? id).map fun f => (c.place f.1, f.2) := by
  have hmemberof : (r'.doclet (c.place id)).memberof = (r.doclet id).memberof :=
    c.field_eq Doclet.memberof (fun _ => rfl) (h.alike id hid)
  have henclosing : r'.enclosingClass? (c.place id) = (r.enclosingClass? id).map c.place := by
    unfold Run.enclosingClass?
    rw [hmemberof]
    split
    · rfl
    · rfl
    · next n hne hn =>
      have hforeign := hclass n hn
      rw [Registry.find?, Registry.find?, h.tables.completed n hforeign,
        h.tables.waiting n hforeign]
      cases r.registry.completed.get? n <;> rfl
  unfold Run.foundClass?
  rw [henclosing]
  cases hfound : r.enclosingClass? id with
  | none => rfl
  | some enclosing =>
    have hbound : enclosing < r.doclets.size :=
      hl.lt_size (hl.arrived_of_enclosingClass? hfound)
    have hsuperclasses : (r'.doclet (c.place enclosing)).superclasses =
        (r.doclet enclosing).superclasses :=
      c.field_eq Doclet.superclasses (fun _ => rfl) (h.alike enclosing hbound)
    simp only [Option.map_some, hsuperclasses]

/-- What the doclet and its counterpart record is alike, and so is the fault if there is one. -/
theorem record_eq (h : c.Holds r r') (hl : Linked as r ws none) (hid : id < r.doclets.size)
    (hclass : (r.doclet id).overriding settings (r.doclet id).tags ≠ none →
      ∀ n, (r.doclet id).memberof = some n → ¬c.Foreign n) :
    c.Alike ((r.doclet id).record settings (r.foundClass? id)).1
        ((r'.doclet (c.place id)).record settings (r'.foundClass? (c.place id))).1 ∧
      ((r'.doclet (c.place id)).record settings (r'.foundClass? (c.place id))).2 =
        ((r.doclet id).record settings (r.foundClass? id)).2 := by
  have halike := h.alike id hid
  by_cases hnone : (r.doclet id).overriding settings (r.doclet id).tags = none
  · -- the enclosing class makes no difference then
    have hnone' := (overriding_eq halike).trans hnone
    rw [record_of_not_overriding hnone, record_of_not_overriding hnone']
    exact c.alike_record halike none
  · rw [h.foundClass?_eq hl hid (hclass hnone)]
    exact c.alike_record halike _

/-- The override of the counterpart is dropped if that of the doclet is. -/
theorem droppedOf_eq (h : c.Holds r r') (hl : Linked as r ws none) (hid : id < r.doclets.size)
    (hclass : (r.doclet id).overriding settings (r.doclet id).tags ≠ none →
      ∀ n, (r.doclet id).memberof = some n → ¬c.Foreign n) :
    r'.droppedOf settings (c.place id) = r.droppedOf settings id := by
  have halike := h.alike id hid
  have hmember : (r'.doclet (c.place id)).memberName = (r.doclet id).memberName :=
    c.field_eq Doclet.memberName (fun _ => rfl) halike
  have hmemberof : (r'.doclet (c.place id)).memberof = (r.doclet id).memberof :=
    c.field_eq Doclet.memberof (fun _ => rfl) halike
  rw [Run.droppedOf, Run.droppedOf, overriding_eq halike, hmember, hmemberof]
  cases hover : (r.doclet id).overriding settings (r.doclet id).tags with
  | none => rfl
  | some code =>
    rw [h.foundClass?_eq hl hid (hclass (by rw [hover]; exact Option.some_ne_none code))]
    cases r.foundClass? id <;> rfl

/-- The first half of the arrival of a doclet, and of its counterpart. -/
theorem declare (h : c.Holds r r') (hl : Linked as r ws none) (hid : id < r.doclets.size)
    (hoverrides : r'.registry.overrides = [])
    (hclass : (r.doclet id).overriding settings (r.doclet id).tags ≠ none →
      ∀ n, (r.doclet id).memberof = some n → ¬c.Foreign n)
    (hasks : ∀ e ∈ ((r.declareAncestors settings id).1.doclet id).pending,
      ¬c.Foreign e.identity) :
    c.Holds (r.declareAncestors settings id).1 (r'.declareAncestors settings (c.place id)).1 ∧
      (r'.declareAncestors settings (c.place id)).2 = (r.declareAncestors settings id).2 ∧
      r'.droppedOf settings (c.place id) = r.droppedOf settings id ∧
      (InheritTag.dictionary settings.titles).ignored (r'.doclet (c.place id)) =
        (InheritTag.dictionary settings.titles).ignored (r.doclet id) := by
  have halike := h.alike id hid
  have hid' := h.size id hid
  obtain ⟨hrecord, hsameFault⟩ := h.record_eq hl hid hclass
  obtain ⟨hchanges, hfault⟩ := Run.changes_declareAncestors settings hid hl.overrides
  obtain ⟨hchanges', hfault'⟩ := Run.changes_declareAncestors settings hid' hoverrides
  have hdeclares : Run.Declares id r (r.declareAncestors settings id).1 :=
    Run.declares_declareAncestors
  have hdeclares' : Run.Declares (c.place id) r'
      (r'.declareAncestors settings (c.place id)).1 := Run.declares_declareAncestors
  refine ⟨?_, ?_, h.droppedOf_eq hl hid hclass, ?_⟩
  · apply h.step hid hdeclares.size hdeclares'.size hdeclares.doclet_of_ne
      hdeclares'.doclet_of_ne
    case halike =>
      rw [hchanges.doclet_self hid, hchanges'.doclet_self hid']
      exact hrecord
    case hname =>
      obtain ⟨entries, hentries⟩ := hdeclares.doclet_self
      exact hentries.longname
    case hasks => exact hasks
    case htables =>
      -- the lists of overrides are no part of what is compared
      rw [hchanges.registry, hchanges'.registry]
      exact ⟨h.tables.completed, h.tables.waiting, h.tables.waiters⟩
  · rw [hfault, hfault', hsameFault]
  · exact c.field_eq (InheritTag.dictionary settings.titles).ignored (fun _ => rfl) halike

/-- The first half of the arrival of a doclet beside the counterparts. -/
theorem declare_beside (h : c.Holds r r') (hx : ∀ id < r.doclets.size, c.place id ≠ x) :
    c.Holds r (r'.declareAncestors settings x).1 := by
  have hdeclares : Run.Declares x r' (r'.declareAncestors settings x).1 :=
    Run.declares_declareAncestors
  refine h.beside hx hdeclares.size hdeclares.doclet_of_ne ⟨?_, ?_, ?_⟩
  · rw [hdeclares.completed]
    exact h.tables.completed
  · rw [hdeclares.waiting]
    exact h.tables.waiting
  · intro n hn
    rw [Registry.waiters, hdeclares.waitingFor, ← Registry.waiters]
    exact h.tables.waiters n hn

end Mirror.Holds

/-! ### Whole arrivals -/

/-- A relation of two runs that is kept when a pass is made over a doclet of the one and over its
counterpart in the other. -/
structure Lockstep (settings : Settings) (place : DocletId → DocletId) (S : Run → Run → Prop) :
    Prop where
  note : ∀ {r r' : Run} (notice notice' : Notice), S r r' → S (r.note notice) (r'.note notice')
  advance : ∀ {r r' : Run} {as as' : List Arrival} {ws ws' : List Wake} {id : DocletId}, S r r' →
    Linked as r ws (some id) → Linked as' r' ws' (some (place id)) →
    S (r.advance settings.placeholder id).1 (r'.advance settings.placeholder (place id)).1 ∧
      (r'.advance settings.placeholder (place id)).2 =
        (r.advance settings.placeholder id).2.map (Wake.moved place) ∧
      r'.passOver (place id) = (r.passOver id).moved place

namespace Lockstep

variable {settings : Settings} {place : DocletId → DocletId} {S : Run → Run → Prop} {r r' : Run}
  {as as' : List Arrival} {ws : List Wake} {id : DocletId}

/-- An agenda is worked off as its counterpart is. -/
theorem cascade (h : Lockstep settings place S) (hS : S r r') (hl : Linked as r ws none)
    (hl' : Linked as' r' (ws.map (Wake.moved place)) none) :
    S (r.cascade settings.placeholder ws)
        (r'.cascade settings.placeholder (ws.map (Wake.moved place))) ∧
      r'.cascadePasses settings.placeholder (ws.map (Wake.moved place)) =
        (r.cascadePasses settings.placeholder ws).map (Pass.moved place) := by
  induction r, ws using Run.cascade.induct settings.placeholder generalizing r' with
  | case1 r =>
    rw [List.map_nil, Run.cascade, Run.cascade, Run.cascadePasses, Run.cascadePasses]
    exact ⟨hS, rfl⟩
  | case2 r w ws ih =>
    have htaken := (hl.takeUp).note (.woken (r.doclet w.waiter).label w.ancestor)
    have htaken' := (hl'.takeUp).note (.woken (r'.doclet (place w.waiter)).label w.ancestor)
    obtain ⟨hnext, hwakes, hpass⟩ := h.advance
      (h.note (.woken (r.doclet w.waiter).label w.ancestor)
        (.woken (r'.doclet (place w.waiter)).label w.ancestor) hS) htaken htaken'
    -- what is woken by the front comes before the counterparts of the rest
    have hagenda : (r'.takeUp settings.placeholder (w.moved place)).2 ++
        ws.map (Wake.moved place) =
        ((r.takeUp settings.placeholder w).2 ++ ws).map (Wake.moved place) := by
      rw [List.map_append]
      exact congrArg (· ++ _) hwakes
    have hl₁ : Linked as (r.takeUp settings.placeholder w).1
        ((r.takeUp settings.placeholder w).2 ++ ws) none := htaken.advance
    have hl₁' : Linked as' (r'.takeUp settings.placeholder (w.moved place)).1
        ((r'.takeUp settings.placeholder (w.moved place)).2 ++ ws.map (Wake.moved place)) none :=
      htaken'.advance
    rw [hagenda] at hl₁'
    change S (r.takeUp settings.placeholder w).1
      (r'.takeUp settings.placeholder (w.moved place)).1 at hnext
    obtain ⟨hrest, hpasses⟩ := ih hnext hl₁ hl₁'
    rw [List.map_cons, Run.cascade, Run.cascade, Run.cascadePasses, Run.cascadePasses, hagenda,
      List.map_cons, hpasses]
    exact ⟨hrest, congrArg (· :: _) hpass⟩

/-- Taking up a doclet sets off what taking up its counterpart does. -/
theorem process (h : Lockstep settings place S) (hS : S r r') (hl : Linked as r [] (some id))
    (hl' : Linked as' r' [] (some (place id))) :
    S (r.process settings.placeholder id) (r'.process settings.placeholder (place id)) ∧
      (r'.advance settings.placeholder (place id)).1.cascadePasses settings.placeholder
          (r'.advance settings.placeholder (place id)).2 =
        ((r.advance settings.placeholder id).1.cascadePasses settings.placeholder
          (r.advance settings.placeholder id).2).map (Pass.moved place) ∧
      r'.passOver (place id) = (r.passOver id).moved place := by
  obtain ⟨hnext, hwakes, hpass⟩ := h.advance hS hl hl'
  have hl₁ : Linked as (r.advance settings.placeholder id).1
      ((r.advance settings.placeholder id).2 ++ []) none := hl.advance
  have hl₁' : Linked as' (r'.advance settings.placeholder (place id)).1
      ((r'.advance settings.placeholder (place id)).2 ++ []) none := hl'.advance
  rw [List.append_nil] at hl₁ hl₁'
  rw [hwakes] at hl₁'
  obtain ⟨hrest, hpasses⟩ := h.cascade hnext hl₁ hl₁'
  unfold Run.process
  dsimp only
  rw [hwakes]
  exact ⟨hrest, hpasses, hpass⟩

/-- So an arrival sets off what the arrival of the counterpart does, when both have declared their
ancestors. -/
theorem feed {s s' : Run} (h : Lockstep settings place S)
    (hdeclared : r.declareAncestors settings id = (s, none))
    (hdeclared' : r'.declareAncestors settings (place id) = (s', none)) (hS : S s s')
    (hl : Linked as s [] (some id)) (hl' : Linked as' s' [] (some (place id))) :
    (r'.feed settings (place id)).2 = none ∧
      S (r.feed settings id).1 (r'.feed settings (place id)).1 ∧
      r'.feedPasses settings (place id) = (r.feedPasses settings id).map (Pass.moved place) := by
  obtain ⟨hnext, hpasses, hpass⟩ := h.process hS hl hl'
  rw [Run.feed_eq, Run.feed_eq, Run.feedPasses, Run.feedPasses, hdeclared, hdeclared']
  dsimp only
  rw [List.map_cons, hpasses, hpass]
  exact ⟨rfl, hnext, rfl⟩

end Lockstep

/-- A run and its mirror image keep in step. -/
theorem Mirror.lockstep {settings : Settings} (c : Mirror settings) :
    Lockstep settings c.place c.Holds where
  note notice notice' h := h.note notice notice'
  advance h hl hl' := by
    obtain ⟨hnext, hwakes⟩ := h.advance hl hl'
    exact ⟨hnext, hwakes, h.passOver_eq (hl.lt_size (hl.arrived _ rfl))⟩

end DocLineage
