import DocLineage.Proofs.Tables
import DocLineage.Resolution.Cascade
import Mathlib.Data.List.Induction

/-!
# One pass over a doclet

A pass walks the pending ancestors of one doclet, merging those that are complete and parking the
doclet under the others. The walk changes the doclet and the tables as it goes, and shortens the
list that it walks; here it is stated what has changed when it is over.

## Main definitions

* `Merge` — an ancestor that a doclet inherits from, with the declaration
* `Run.merges` — what a pass over a doclet merges, in the order in which it does
* `Doclet.replay` — a doclet after some merges
* `Run.stillPending` — the entries whose ancestor is not complete

## Main results

* `Run.walk_append`, `Run.pass_eq` — every entry is visited as if the list kept its length, and
  those that are still pending are left over
* `Run.doclet_pass_self`, `Run.doclet_pass_of_ne` — the doclets after a pass
* `Run.registry_pass` — the registry after a pass
* `Run.advance_of_ne_nil`, `Run.advance_of_eq_nil` — a pass that leaves something pending, and one
  that does not
-/

namespace DocLineage

/-! ### Merging -/

/-- An ancestor that a doclet inherits from, with the entry through which it does. -/
structure Merge where
  ancestor : DocletId
  entry : PendingAncestor

/-- The doclet after some merges, in order, where every ancestor is as it is read. -/
def Doclet.replay (placeholder : Value) (read : DocletId → Doclet) (ms : List Merge) (d : Doclet) :
    Doclet :=
  ms.foldl (fun d m => d.inherit (read m.ancestor) m.entry.mode placeholder m.entry.rank) d

namespace Doclet

variable {placeholder : Value} {read read' : DocletId → Doclet} {ms ms' : List Merge} {d : Doclet}

@[simp] theorem replay_nil : d.replay placeholder read [] = d := rfl

@[simp] theorem replay_append :
    d.replay placeholder read (ms ++ ms') =
      (d.replay placeholder read ms).replay placeholder read ms' :=
  List.foldl_append

/-- Only the doclets that are merged are read. -/
theorem replay_congr (h : ∀ m ∈ ms, read m.ancestor = read' m.ancestor) :
    d.replay placeholder read ms = d.replay placeholder read' ms := by
  induction ms generalizing d with
  | nil => rfl
  | cons m ms ih =>
    simp only [replay, List.foldl_cons] at ih ⊢
    rw [h m List.mem_cons_self]
    exact ih fun m' hm' => h m' (List.mem_cons_of_mem m hm')

/-- A property of doclets that no merge changes is not changed by many. -/
theorem replay_preserves {α : Type} (f : Doclet → α)
    (h : ∀ (d ancestor : Doclet) (mode : InheritMode) (placeholder : Value) (rank : Int),
      f (d.inherit ancestor mode placeholder rank) = f d) :
    f (d.replay placeholder read ms) = f d := by
  induction ms generalizing d with
  | nil => rfl
  | cons m ms ih => exact ih.trans (h ..)

@[simp] theorem pending_replay : (d.replay placeholder read ms).pending = d.pending :=
  replay_preserves Doclet.pending pending_inherit

/-- Merging does not look at what is pending. -/
theorem inherit_setPending (d ancestor : Doclet) (mode : InheritMode) (placeholder : Value)
    (rank : Int) (pending : List PendingAncestor) :
    ({ d with pending } : Doclet).inherit ancestor mode placeholder rank =
      { d.inherit ancestor mode placeholder rank with pending } := by
  cases mode <;> rfl

/-- Nor does it look at what is pending on the ancestor. -/
theorem inherit_setPending_ancestor (d ancestor : Doclet) (mode : InheritMode) (placeholder : Value)
    (rank : Int) (pending : List PendingAncestor) :
    d.inherit { ancestor with pending } mode placeholder rank =
      d.inherit ancestor mode placeholder rank := by
  cases mode <;> rfl

theorem replay_setPending (pending : List PendingAncestor) :
    ({ d with pending } : Doclet).replay placeholder read ms =
      { d.replay placeholder read ms with pending } := by
  induction ms generalizing d with
  | nil => rfl
  | cons m ms ih =>
    simp only [replay, List.foldl_cons] at ih ⊢
    rw [inherit_setPending]
    exact ih

end Doclet

namespace Run

variable {placeholder : Value} {r : Run} {id id' : DocletId} {f g : Doclet → Doclet}

/-! ### Doclets of a changed run -/

@[simp] theorem doclet_note (n : Notice) : (r.note n).doclet id = r.doclet id := rfl

@[simp] theorem size_note (n : Notice) : (r.note n).doclets.size = r.doclets.size := rfl

@[simp] theorem size_update : (r.update id f).doclets.size = r.doclets.size :=
  Array.size_modify

theorem doclet_update_self (h : id < r.doclets.size) :
    (r.update id f).doclet id = f (r.doclet id) := by
  simp [update, doclet, Array.getElem?_modify, Array.getElem?_eq_getElem h]

theorem doclet_update_of_ne (h : id' ≠ id) : (r.update id f).doclet id' = r.doclet id' := by
  simp [update, doclet, Array.getElem?_modify, Ne.symm h]

theorem doclets_modify_id : r.doclets.modify id (fun d => d) = r.doclets := by
  apply Array.ext_getElem?
  intro i
  rw [Array.getElem?_modify]
  split
  · exact Option.map_id'
  · rfl

theorem doclets_modify_modify :
    (r.doclets.modify id f).modify id g = r.doclets.modify id fun d => g (f d) := by
  apply Array.ext_getElem?
  intro i
  simp only [Array.getElem?_modify]
  split
  · rw [Option.map_map]
    rfl
  · rfl

/-- Only what is done to the doclet that is there counts. -/
theorem doclets_modify_congr (h : f (r.doclet id) = g (r.doclet id)) :
    r.doclets.modify id f = r.doclets.modify id g := by
  apply Array.ext_getElem?
  intro i
  rw [Array.getElem?_modify, Array.getElem?_modify]
  split
  · next heq =>
    subst heq
    cases hd : r.doclets[id]? with
    | none => rfl
    | some d =>
      have hdoclet : r.doclet id = d := by rw [doclet, hd]; rfl
      rw [Option.map_some, Option.map_some, ← hdoclet, h]
  · rfl

theorem update_congr (h : f (r.doclet id) = g (r.doclet id)) : r.update id f = r.update id g := by
  rw [update, doclets_modify_congr h, update]

theorem update_update : (r.update id f).update id g = r.update id fun d => g (f d) := by
  simp only [update, doclets_modify_modify]

/-- A change that leaves the doclet as it is changes nothing. -/
theorem update_eq_self (h : f (r.doclet id) = r.doclet id) : r.update id f = r := by
  rw [update, doclets_modify_congr (g := fun d => d) h, doclets_modify_id]

/-- Nothing has arrived at a place out of range. -/
theorem doclet_of_size_le (h : r.doclets.size ≤ id) : r.doclet id = {} := by
  simp [doclet, Array.getElem?_eq_none h]

/-- The doclets of a run are those at its places. -/
theorem toList_doclets : r.doclets.toList = (List.range r.doclets.size).map r.doclet := by
  apply List.ext_getElem
  · simp
  · intro i hi hi'
    simp [doclet, Array.getElem?_eq_getElem (by simpa using hi)]

/-- A change to the doclet at a place that keeps one of its fields. -/
theorem field_update {α : Type} (field : Doclet → α) (h : ∀ d, field (f d) = field d) :
    field ((r.update id f).doclet id') = field (r.doclet id') := by
  by_cases hid : id' = id
  · subst hid
    by_cases hsize : id' < r.doclets.size
    · rw [doclet_update_self hsize, h]
    · have hsize := Nat.le_of_not_lt hsize
      rw [doclet_of_size_le (by simpa using hsize), doclet_of_size_le hsize]
  · rw [doclet_update_of_ne hid]

end Run

/-- What a registry lets a doclet merge through some entries: those whose ancestor is complete. -/
def Registry.mergesOf (r : Registry) (entries : List PendingAncestor) : List Merge :=
  entries.filterMap fun e => (r.completed.get? e.identity).map (⟨·, e⟩)

/-- What a pass over a doclet merges, in the order in which it does: the last declared first. -/
def Run.merges (r : Run) (id : DocletId) : List Merge :=
  r.registry.mergesOf (r.doclet id).pending.reverse

namespace Registry

variable {r : Registry} {e : PendingAncestor} {es : List PendingAncestor} {m : Merge}

theorem mem_mergesOf :
    m ∈ r.mergesOf es ↔ m.entry ∈ es ∧ r.completed.get? m.entry.identity = some m.ancestor := by
  unfold mergesOf
  rw [List.mem_filterMap]
  constructor
  · rintro ⟨e, he, hm⟩
    obtain ⟨a, ha, rfl⟩ := Option.map_eq_some_iff.mp hm
    exact ⟨he, ha⟩
  · rintro ⟨he, ha⟩
    exact ⟨m.entry, he, by rw [ha]; rfl⟩

theorem map_entry_mergesOf :
    (r.mergesOf es).map Merge.entry = es.filter fun e => r.completed.contains e.identity := by
  induction es with
  | nil => rfl
  | cons e es ih =>
    unfold mergesOf at ih ⊢
    rw [List.filterMap_cons, List.filter_cons, Table.contains]
    cases r.completed.get? e.identity with
    | none => simpa using ih
    | some a => simpa using ih

/-- The first merge that yields something is that of the first entry whose ancestor does. -/
theorem findSome?_mergesOf {α : Type} {f : Merge → Option α} : (r.mergesOf es).findSome? f =
    es.findSome? fun e => (r.completed.get? e.identity).bind fun x => f ⟨x, e⟩ := by
  induction es with
  | nil => rfl
  | cons e es ih =>
    unfold mergesOf at ih ⊢
    rw [List.filterMap_cons, List.findSome?_cons]
    cases r.completed.get? e.identity with
    | none => exact ih
    | some x =>
      simp only [Option.map_some, List.findSome?_cons, Option.bind_some]
      rw [ih]

end Registry

namespace Run

/-- The entries whose ancestor is not complete. -/
def stillPending (r : Registry) (pending : List PendingAncestor) : List PendingAncestor :=
  pending.filter fun entry => !r.completed.contains entry.identity

/-- The run in which the given entries are what is pending on a doclet. -/
def setPending (r : Run) (id : DocletId) (pending : List PendingAncestor) : Run :=
  r.update id fun d => { d with pending }

variable {placeholder : Value} {r : Run} {id id' : DocletId} {l : List PendingAncestor}

theorem mem_merges {m : Merge} : m ∈ r.merges id ↔
    m.entry ∈ (r.doclet id).pending ∧
      r.registry.completed.get? m.entry.identity = some m.ancestor := by
  rw [merges, Registry.mem_mergesOf, List.mem_reverse]

/-! ### The walk over pending ancestors -/

@[simp] theorem size_visit (e : PendingAncestor) :
    (r.visit placeholder id e).doclets.size = r.doclets.size := by
  unfold visit
  split
  · exact size_update
  · rfl

theorem doclet_visit_of_ne (h : id' ≠ id) (e : PendingAncestor) :
    (r.visit placeholder id e).doclet id' = r.doclet id' := by
  unfold visit
  split
  · exact doclet_update_of_ne h
  · rfl

/-- A visit to a complete ancestor merges it as it is. -/
theorem doclet_visit_self {e : PendingAncestor} {ancestor : DocletId} (hid : id < r.doclets.size)
    (h : r.registry.completed.get? e.identity = some ancestor) :
    (r.visit placeholder id e).doclet id =
      (r.doclet id).inherit (r.doclet ancestor) e.mode placeholder e.rank := by
  simp only [visit, h, merge]
  rw [doclet_update_self (by rw [size_note]; exact hid), doclet_note]

theorem longname_visit (e : PendingAncestor) :
    ((r.visit placeholder id e).doclet id').longname = (r.doclet id').longname := by
  unfold visit
  split
  · exact field_update Doclet.longname fun _ => Doclet.longname_inherit ..
  · rfl

theorem pending_visit (e : PendingAncestor) :
    ((r.visit placeholder id e).doclet id').pending = (r.doclet id').pending := by
  unfold visit
  split
  · exact field_update Doclet.pending fun _ => Doclet.pending_inherit ..
  · rfl

theorem registry_visit (e : PendingAncestor) : (r.visit placeholder id e).registry =
    if r.registry.completed.contains e.identity then r.registry
    else r.registry.park id (r.doclet id).longname e.identity := by
  unfold visit Table.contains
  cases r.registry.completed.get? e.identity <;> rfl

@[simp] theorem completed_visits (placeholder : Value) (id : DocletId) (r : Run)
    (es : List PendingAncestor) :
    (es.foldl (visit placeholder id) r).registry.completed = r.registry.completed := by
  induction es generalizing r with
  | nil => rfl
  | cons e es ih => rw [List.foldl_cons, ih, completed_visit]

@[simp] theorem size_visits (es : List PendingAncestor) :
    (es.foldl (visit placeholder id) r).doclets.size = r.doclets.size := by
  induction es generalizing r with
  | nil => rfl
  | cons e es ih => rw [List.foldl_cons, ih, size_visit]

theorem doclet_visits_of_ne (h : id' ≠ id) (es : List PendingAncestor) :
    (es.foldl (visit placeholder id) r).doclet id' = r.doclet id' := by
  induction es generalizing r with
  | nil => rfl
  | cons e es ih => rw [List.foldl_cons, ih, doclet_visit_of_ne h]

/-- A doclet that is not itself complete reads only doclets that the walk does not touch. -/
theorem doclet_visits_self (hid : id < r.doclets.size)
    (h : ∀ k, r.registry.completed.get? k ≠ some id) (es : List PendingAncestor) :
    (es.foldl (visit placeholder id) r).doclet id =
      (r.doclet id).replay placeholder r.doclet (r.registry.mergesOf es) := by
  induction es generalizing r with
  | nil => rfl
  | cons e es ih =>
    have hcompleted : (r.visit placeholder id e).registry.completed = r.registry.completed :=
      completed_visit ..
    rw [List.foldl_cons, ih (by simpa using hid) (by simpa using h)]
    have hread : (r.visit placeholder id e).registry.mergesOf es = r.registry.mergesOf es := by
      rw [Registry.mergesOf, hcompleted, Registry.mergesOf]
    -- the ancestors that are still to be merged are not the doclet itself
    have hother : ∀ m ∈ r.registry.mergesOf es,
        (r.visit placeholder id e).doclet m.ancestor = r.doclet m.ancestor := fun m hm =>
      doclet_visit_of_ne (fun heq => h _ (heq ▸ (Registry.mem_mergesOf.mp hm).2)) e
    rw [hread, Doclet.replay_congr hother]
    -- the first entry is merged, or the doclet is parked, which changes no doclet
    rw [Registry.mergesOf, Registry.mergesOf, List.filterMap_cons]
    unfold visit
    cases r.registry.completed.get? e.identity with
    | none => rfl
    | some a => simp only [merge, doclet_update_self (r := r.note _) hid]; rfl

theorem registry_visits (es : List PendingAncestor) :
    (es.foldl (visit placeholder id) r).registry =
      r.registry.parkAll id (r.doclet id).longname
        ((stillPending r.registry es).map PendingAncestor.identity) := by
  induction es generalizing r with
  | nil => rfl
  | cons e es ih =>
    have hcompleted : (r.visit placeholder id e).registry.completed = r.registry.completed :=
      completed_visit ..
    rw [List.foldl_cons, ih, longname_visit, stillPending, hcompleted, stillPending,
      List.filter_cons, registry_visit]
    cases r.registry.completed.contains e.identity <;> simp

/-! ### The list that is walked -/

/-- Something can be pending only where a doclet has arrived. -/
theorem lt_size_of_pending_ne_nil (h : (r.doclet id).pending ≠ []) : id < r.doclets.size := by
  by_contra hid
  rw [doclet_of_size_le (Nat.le_of_not_lt hid)] at h
  exact h rfl

theorem setPending_setPending (l l' : List PendingAncestor) :
    (r.setPending id l).setPending id l' = r.setPending id l' :=
  update_update

theorem setPending_self (h : (r.doclet id).pending = l) : r.setPending id l = r :=
  update_eq_self (by rw [← h])

theorem park_setPending (ancestor : Text) :
    (r.setPending id l).park id ancestor = (r.park id ancestor).setPending id l := by
  have hlongname : ((r.setPending id l).doclet id).longname = (r.doclet id).longname :=
    field_update Doclet.longname fun _ => rfl
  rw [park, hlongname]
  rfl

/-- A doclet that is read has the same to give, whatever is pending on it. -/
theorem inherit_doclet_setPending (d : Doclet) (x : DocletId) (mode : InheritMode) (rank : Int) :
    d.inherit ((r.setPending id l).doclet x) mode placeholder rank =
      d.inherit (r.doclet x) mode placeholder rank := by
  by_cases hx : x = id
  · subst hx
    by_cases hsize : x < r.doclets.size
    · rw [setPending, doclet_update_self hsize, Doclet.inherit_setPending_ancestor]
    · have hsize := Nat.le_of_not_lt hsize
      rw [doclet_of_size_le (by rw [setPending, size_update]; exact hsize),
        doclet_of_size_le hsize]
  · rw [setPending, doclet_update_of_ne hx]

theorem merge_setPending (x : DocletId) (e : PendingAncestor) :
    (r.setPending id l).merge placeholder id x e =
      (r.merge placeholder id x e).setPending id l := by
  have hlabel : ((r.setPending id l).doclet id).label = (r.doclet id).label :=
    field_update Doclet.label fun _ => rfl
  simp only [merge, hlabel, inherit_doclet_setPending]
  have hnote : (r.setPending id l).note (.merging e.identity (r.doclet id).label) =
      (r.note (.merging e.identity (r.doclet id).label)).setPending id l := rfl
  rw [hnote, setPending, setPending, update_update, update_update]
  simp only [Doclet.inherit_setPending]

/-- What is pending on a doclet has no part in a visit, even if the doclet is its own ancestor. -/
theorem visit_setPending (e : PendingAncestor) :
    (r.setPending id l).visit placeholder id e = (r.visit placeholder id e).setPending id l := by
  have hregistry : (r.setPending id l).registry = r.registry := rfl
  rw [visit, visit, hregistry]
  cases r.registry.completed.get? e.identity with
  | none => exact park_setPending e.identity
  | some x => exact merge_setPending x e

theorem visits_setPending (es : List PendingAncestor) :
    es.foldl (visit placeholder id) (r.setPending id l) =
      (es.foldl (visit placeholder id) r).setPending id l := by
  induction es generalizing r with
  | nil => rfl
  | cons e es ih => rw [List.foldl_cons, visit_setPending, ih, List.foldl_cons]

/-- The entry at a place is visited, and stays in the list if its ancestor is not complete. -/
theorem visitAt_eq {before after : List PendingAncestor} {e : PendingAncestor}
    (h : (r.doclet id).pending = before ++ e :: after) :
    r.visitAt placeholder id before.length = (r.visit placeholder id e).setPending id
      (before ++ (stillPending r.registry [e] ++ after)) := by
  have hget : (r.doclet id).pending[before.length]? = some e := by
    rw [h, List.getElem?_append_right (Nat.le_refl _), Nat.sub_self, List.getElem?_cons_zero]
  have hvisited : ((r.visit placeholder id e).doclet id).pending = before ++ e :: after := by
    rw [pending_visit, h]
  simp only [visitAt, hget, stillPending, List.filter_cons, List.filter_nil]
  cases r.registry.completed.contains e.identity with
  | false => exact (setPending_self hvisited).symm
  | true =>
    apply update_congr
    rw [hvisited, List.eraseIdx_append_of_length_le (Nat.le_refl _), Nat.sub_self]
    rfl

/-- A walk that has come from the end of the list to some place has visited the entries as if the
list kept its length. Those without a complete ancestor are left of them, and the walk goes on in
front of these. -/
theorem walk_append (placeholder : Value) {before walked after : List PendingAncestor}
    (h : (r.doclet id).pending = before ++ (walked ++ after)) :
    r.walk placeholder id (before ++ walked).length =
      ((walked.reverse.foldl (visit placeholder id) r).setPending id
        (before ++ (stillPending r.registry walked ++ after))).walk placeholder id
          before.length := by
  -- the last entry is visited first, and what is behind the walk grows by it if it stays
  induction walked using List.reverseRecOn generalizing r after with
  | nil =>
    rw [List.append_nil]
    exact congrArg (fun s : Run => s.walk placeholder id before.length) (setPending_self h).symm
  | append_singleton walked e ih =>
    rw [List.append_assoc, List.singleton_append, ← List.append_assoc] at h
    have hpending : ((r.visitAt placeholder id (before ++ walked).length).doclet id).pending =
        before ++ (walked ++ (stillPending r.registry [e] ++ after)) := by
      have hsize : id < r.doclets.size := lt_size_of_pending_ne_nil (by rw [h]; simp)
      rw [visitAt_eq h, setPending, doclet_update_self (by rw [size_visit]; exact hsize),
        List.append_assoc]
    have hstill : stillPending (r.visitAt placeholder id (before ++ walked).length).registry
        walked = stillPending r.registry walked := by
      rw [stillPending, completed_visitAt, stillPending]
    have hsplit : stillPending r.registry (walked ++ [e]) =
        stillPending r.registry walked ++ stillPending r.registry [e] := List.filter_append ..
    rw [← List.append_assoc, List.length_append, List.length_singleton, walk, ih hpending, hstill,
      visitAt_eq h, visits_setPending, setPending_setPending, List.reverse_concat, List.foldl_cons,
      hsplit, List.append_assoc]

/-- A pass visits all entries, from the last to the first, and then leaves over those that are still
pending. -/
theorem pass_eq : r.pass placeholder id =
    ((r.doclet id).pending.reverse.foldl (visit placeholder id) r).setPending id
      (stillPending r.registry (r.doclet id).pending) := by
  have hall : (r.doclet id).pending = [] ++ ((r.doclet id).pending ++ []) := by simp
  have hwalk := walk_append placeholder hall
  rw [List.append_nil] at hwalk
  exact hwalk

/-! ### The state after a pass -/

@[simp] theorem size_pass : (r.pass placeholder id).doclets.size = r.doclets.size := by
  rw [pass_eq, setPending, size_update, size_visits]

/-- A pass changes no other doclet. -/
theorem doclet_pass_of_ne (h : id' ≠ id) :
    (r.pass placeholder id).doclet id' = r.doclet id' := by
  rw [pass_eq, setPending, doclet_update_of_ne h, doclet_visits_of_ne h]

/-- A pass over a doclet that waits for nothing changes nothing. -/
theorem pass_of_complete (h : (r.doclet id).pending = []) : r.pass placeholder id = r := by
  rw [pass, h, List.length_nil, walk]

/-- A pass merges what is complete and leaves the rest pending. -/
theorem doclet_pass_self (h : ∀ k, r.registry.completed.get? k ≠ some id) :
    (r.pass placeholder id).doclet id =
      { (r.doclet id).replay placeholder r.doclet (r.merges id) with
        pending := stillPending r.registry (r.doclet id).pending } := by
  by_cases hnil : (r.doclet id).pending = []
  · rw [pass_of_complete hnil, merges, hnil]
    change r.doclet id = { r.doclet id with pending := [] }
    rw [← hnil]
  · have hid : id < r.doclets.size := lt_size_of_pending_ne_nil hnil
    rw [pass_eq, setPending, doclet_update_self (by rw [size_visits]; exact hid),
      doclet_visits_self hid h]
    rfl

theorem pending_pass : ((r.pass placeholder id).doclet id).pending =
    stillPending r.registry (r.doclet id).pending := by
  by_cases hid : id < r.doclets.size
  · rw [pass_eq, setPending, doclet_update_self (by rw [size_visits]; exact hid)]
  · -- out of range there is nothing to wait for, neither before nor after
    have hid := Nat.le_of_not_lt hid
    rw [doclet_of_size_le hid, doclet_of_size_le (by rw [size_pass]; exact hid)]
    rfl

/-- What a pass leaves pending on its doclet is what was declared on names that are not complete. -/
theorem mem_pending_pass_self {e : PendingAncestor} :
    e ∈ ((r.pass placeholder id).doclet id).pending ↔
      e ∈ (r.doclet id).pending ∧ r.registry.completed.contains e.identity = false := by
  rw [pending_pass, stillPending, List.mem_filter, Bool.not_eq_true']

/-- A pass leaves nothing pending that was not. -/
theorem mem_pending_of_pass {e : PendingAncestor}
    (h : e ∈ ((r.pass placeholder id).doclet id').pending) : e ∈ (r.doclet id').pending := by
  by_cases hid : id' = id
  · subst hid
    exact (mem_pending_pass_self.mp h).1
  · rw [doclet_pass_of_ne hid] at h
    exact h

theorem longname_pass :
    ((r.pass placeholder id).doclet id').longname = (r.doclet id').longname := by
  rw [pass_eq, setPending, field_update Doclet.longname]
  · generalize (r.doclet id).pending.reverse = es
    induction es generalizing r with
    | nil => rfl
    | cons e es ih => rw [List.foldl_cons, ih, longname_visit]
  · intro d
    rfl

/-- A pass parks the doclet under every ancestor that is not complete. -/
theorem registry_pass : (r.pass placeholder id).registry =
    r.registry.parkAll id (r.doclet id).longname
      ((stillPending r.registry (r.doclet id).pending).map PendingAncestor.identity).reverse := by
  rw [pass_eq, setPending, registry_update, registry_visits, stillPending, stillPending,
    List.filter_reverse, List.map_reverse]

/-! ### The step that a pass belongs to -/

/-- A pass that leaves something pending wakes no one. -/
theorem advance_of_ne_nil (h : stillPending r.registry (r.doclet id).pending ≠ []) :
    r.advance placeholder id = (r.pass placeholder id, []) := by
  simp only [advance, Doclet.isComplete, pending_pass, List.isEmpty_iff, if_neg h]

/-- A pass that leaves nothing pending leaves the registry to the completion of the doclet. -/
theorem advance_of_eq_nil (h : stillPending r.registry (r.doclet id).pending = []) :
    r.advance placeholder id = (r.pass placeholder id).settle id ∧
      (r.pass placeholder id).registry = r.registry := by
  constructor
  · simp only [advance, Doclet.isComplete, pending_pass, List.isEmpty_iff, if_pos h]
  · rw [registry_pass, h]
    rfl

theorem registry_settle : (r.settle id).1.registry =
    if (r.doclet id).longname = [] then r.registry
    else r.registry.settle id (r.doclet id).longname := by
  unfold settle
  dsimp only
  split <;> rfl

/-- A doclet that has nothing left to wait for is completed under its name, if it has one. -/
theorem registry_advance_of_eq_nil (h : stillPending r.registry (r.doclet id).pending = []) :
    (r.advance placeholder id).1.registry =
      if (r.doclet id).longname = [] then r.registry
      else r.registry.settle id (r.doclet id).longname := by
  rw [(advance_of_eq_nil h).1, registry_settle, longname_pass, (advance_of_eq_nil h).2]

/-- A completion changes the tables only. -/
@[simp] theorem doclets_settle : (r.settle id).1.doclets = r.doclets := by
  unfold settle
  dsimp only
  split <;> rfl

/-- The doclets after a step are those after its pass. -/
@[simp] theorem doclets_advance :
    (r.advance placeholder id).1.doclets = (r.pass placeholder id).doclets := by
  unfold advance
  dsimp only
  split
  · exact doclets_settle
  · rfl

theorem doclet_advance :
    (r.advance placeholder id).1.doclet id' = (r.pass placeholder id).doclet id' := by
  rw [doclet, doclets_advance, doclet]

theorem size_advance : (r.advance placeholder id).1.doclets.size = r.doclets.size := by
  rw [doclets_advance, size_pass]

end Run

end DocLineage
