import DocLineage.Doclet.Inherit
import DocLineage.Journal
import DocLineage.Resolution.Registry
import DocLineage.TagDictionary

/-!
# The state of a run

A run holds the doclets that take part in it, its registry, and what was recorded on the way. A
doclet that waits for no ancestor any more is complete; completing one sets free the doclets that
waited for its name.

## Main definitions

* `Run` — the state
* `Run.visit`, `Run.visitAt` — one pending ancestor of a doclet, and the one at a place of its list
* `Run.walk`, `Run.pass` — the pending ancestors of a doclet from a place down, and all of them
* `Run.settle` — a doclet becomes complete
* `Run.advance` — a pass, and completion when nothing is left pending

## Main results

* `Run.longnames_pass`, `Run.completed_pass` — a pass completes nothing
* `Run.staleWaiters_pass` — a pass makes no doclet wait for a name that is complete
-/

namespace DocLineage

/-- An override whose enclosing class was not found. -/
structure DroppedOverride where
  doclet : Text
  memberof : Option Text
deriving DecidableEq, Repr

/-- The state of a resolution run. -/
structure Run where
  /-- The doclets by their place of arrival. -/
  doclets : Array Doclet
  registry : Registry := {}
  dropped : List DroppedOverride := []
  ignored : List IgnoredTag := []
  journal : Array Notice := #[]

/-- A doclet that is to be taken up again because an ancestor is complete. -/
structure Wake where
  waiter : DocletId
  ancestor : Text
deriving DecidableEq, Repr

namespace Run

/-- The doclet at a place; one without any fields where none has arrived. -/
def doclet (r : Run) (id : DocletId) : Doclet := (r.doclets[id]?).getD {}

/-- The run with the doclet at a place changed. -/
def update (r : Run) (id : DocletId) (f : Doclet → Doclet) : Run :=
  { r with doclets := r.doclets.modify id f }

/-- The run with a notice in its journal. -/
def note (r : Run) (n : Notice) : Run := { r with journal := r.journal.push n }

/-- The doclet waits for an ancestor. -/
def park (r : Run) (id : DocletId) (ancestor : Text) : Run :=
  { r with registry := r.registry.park id (r.doclet id).longname ancestor }

/-- The doclet inherits from a complete one. -/
def merge (placeholder : Value) (r : Run) (id ancestor : DocletId) (entry : PendingAncestor) :
    Run :=
  (r.note (.merging entry.identity (r.doclet id).label)).update id fun d =>
    d.inherit (r.doclet ancestor) entry.mode placeholder entry.rank

/-- One pending ancestor of a doclet: the doclet inherits from it if it is complete, and waits for
it otherwise. -/
def visit (placeholder : Value) (id : DocletId) (r : Run) (entry : PendingAncestor) : Run :=
  match r.registry.completed.get? entry.identity with
  | some ancestor => r.merge placeholder id ancestor entry
  | none => r.park id entry.identity

/-- The doclet is done with the pending ancestor at a place. -/
def strike (r : Run) (id : DocletId) (i : Nat) : Run :=
  r.update id fun d => { d with pending := d.pending.eraseIdx i }

/-- The pending ancestor at a place is visited, and struck off the list if the doclet has inherited
from it. -/
def visitAt (placeholder : Value) (id : DocletId) (r : Run) (i : Nat) : Run :=
  match (r.doclet id).pending[i]? with
  | none => r
  | some entry =>
    if r.registry.completed.contains entry.identity then
      (r.visit placeholder id entry).strike id i
    else r.visit placeholder id entry

/-- The first pending ancestors of a doclet, as many as given, from the last one of them to the
first. The list gets shorter as it is walked. -/
def walk (placeholder : Value) (id : DocletId) (r : Run) : Nat → Run
  | 0 => r
  | i + 1 => walk placeholder id (r.visitAt placeholder id i) i

/-- All pending ancestors of a doclet, the last declared one first. What it could not inherit stays
pending. -/
def pass (placeholder : Value) (r : Run) (id : DocletId) : Run :=
  r.walk placeholder id (r.doclet id).pending.length

/-- A doclet becomes complete and sets free what waited for its name. An anonymous doclet is not
registered, since nothing can inherit from it. -/
def settle (r : Run) (id : DocletId) : Run × List Wake :=
  let d := r.doclet id
  if d.longname = [] then (r.note (.anonymousCompleted d.codeId), [])
  else
    ({ r with registry := r.registry.settle id d.longname }.note (.completed d.longname),
      (r.registry.waiters d.longname).map (⟨·, d.longname⟩))

/-- A pass over a doclet, and its completion when nothing is left pending. -/
def advance (placeholder : Value) (r : Run) (id : DocletId) : Run × List Wake :=
  let r := r.pass placeholder id
  if (r.doclet id).isComplete then r.settle id else (r, [])

/-! ### What a pass leaves alone -/

/-- The longnames of the doclets in order of arrival. -/
def longnames (r : Run) : List Text := r.doclets.toList.map Doclet.longname

@[simp] theorem longnames_note (r : Run) (n : Notice) : (r.note n).longnames = r.longnames := rfl

@[simp] theorem registry_note (r : Run) (n : Notice) : (r.note n).registry = r.registry := rfl

@[simp] theorem registry_update (r : Run) (id : DocletId) (f : Doclet → Doclet) :
    (r.update id f).registry = r.registry := rfl

theorem longnames_update (r : Run) (id : DocletId) {f : Doclet → Doclet}
    (h : ∀ d, (f d).longname = d.longname) : (r.update id f).longnames = r.longnames := by
  apply List.ext_getElem?
  intro i
  simp only [longnames, update, List.getElem?_map, Array.getElem?_toList, Array.getElem?_modify]
  split
  · cases r.doclets[i]? <;> simp [h]
  · rfl

@[simp] theorem longnames_park (r : Run) (id : DocletId) (ancestor : Text) :
    (r.park id ancestor).longnames = r.longnames := rfl

@[simp] theorem longnames_merge (placeholder : Value) (r : Run) (id ancestor : DocletId)
    (entry : PendingAncestor) :
    (r.merge placeholder id ancestor entry).longnames = r.longnames :=
  longnames_update _ _ fun _ => Doclet.longname_inherit ..

@[simp] theorem longnames_visit (placeholder : Value) (id : DocletId) (r : Run)
    (entry : PendingAncestor) : (r.visit placeholder id entry).longnames = r.longnames := by
  unfold visit
  split <;> simp

@[simp] theorem completed_visit (placeholder : Value) (id : DocletId) (r : Run)
    (entry : PendingAncestor) :
    (r.visit placeholder id entry).registry.completed = r.registry.completed := by
  unfold visit
  split <;> rfl

@[simp] theorem longnames_strike (r : Run) (id : DocletId) (i : Nat) :
    (r.strike id i).longnames = r.longnames :=
  longnames_update r id fun _ => rfl

@[simp] theorem registry_strike (r : Run) (id : DocletId) (i : Nat) :
    (r.strike id i).registry = r.registry := rfl

@[simp] theorem longnames_visitAt (placeholder : Value) (id : DocletId) (r : Run) (i : Nat) :
    (r.visitAt placeholder id i).longnames = r.longnames := by
  unfold visitAt
  split
  · rfl
  · split
    · rw [longnames_strike, longnames_visit]
    · exact longnames_visit ..

@[simp] theorem completed_visitAt (placeholder : Value) (id : DocletId) (r : Run) (i : Nat) :
    (r.visitAt placeholder id i).registry.completed = r.registry.completed := by
  unfold visitAt
  split
  · rfl
  · split
    · rw [registry_strike, completed_visit]
    · exact completed_visit ..

theorem longnames_walk (placeholder : Value) (id : DocletId) (r : Run) (n : Nat) :
    (r.walk placeholder id n).longnames = r.longnames := by
  induction n generalizing r with
  | zero => rfl
  | succ i ih => rw [walk, ih, longnames_visitAt]

theorem completed_walk (placeholder : Value) (id : DocletId) (r : Run) (n : Nat) :
    (r.walk placeholder id n).registry.completed = r.registry.completed := by
  induction n generalizing r with
  | zero => rfl
  | succ i ih => rw [walk, ih, completed_visitAt]

/-- A pass changes no longname. -/
@[simp] theorem longnames_pass (placeholder : Value) (r : Run) (id : DocletId) :
    (r.pass placeholder id).longnames = r.longnames :=
  longnames_walk ..

/-- A pass completes nothing. -/
@[simp] theorem completed_pass (placeholder : Value) (r : Run) (id : DocletId) :
    (r.pass placeholder id).registry.completed = r.registry.completed :=
  completed_walk ..

end Run

namespace Registry

/-- Waiting for a name that is not complete makes no waiter stale. -/
theorem staleWaiters_park {r : Registry} {ancestor : Text}
    (h : r.completed.get? ancestor = none) (id : DocletId) (longname : Text) :
    (r.park id longname ancestor).staleWaiters = r.staleWaiters := by
  unfold staleWaiters park Table.insert
  apply Table.total_set_of_zero
  intro v
  simp [staleLength, Table.contains, h]

end Registry

namespace Run

theorem staleWaiters_visit (placeholder : Value) (id : DocletId) (r : Run)
    (entry : PendingAncestor) :
    (r.visit placeholder id entry).registry.staleWaiters = r.registry.staleWaiters := by
  unfold visit
  split
  · rfl
  · next h => exact Registry.staleWaiters_park h ..

theorem staleWaiters_visitAt (placeholder : Value) (id : DocletId) (r : Run) (i : Nat) :
    (r.visitAt placeholder id i).registry.staleWaiters = r.registry.staleWaiters := by
  unfold visitAt
  split
  · rfl
  · split
    · rw [registry_strike, staleWaiters_visit]
    · exact staleWaiters_visit ..

theorem staleWaiters_walk (placeholder : Value) (id : DocletId) (r : Run) (n : Nat) :
    (r.walk placeholder id n).registry.staleWaiters = r.registry.staleWaiters := by
  induction n generalizing r with
  | zero => rfl
  | succ i ih => rw [walk, ih, staleWaiters_visitAt]

/-- A pass makes no doclet wait for a name that is complete. -/
@[simp] theorem staleWaiters_pass (placeholder : Value) (r : Run) (id : DocletId) :
    (r.pass placeholder id).registry.staleWaiters = r.registry.staleWaiters :=
  staleWaiters_walk ..

end Run

end DocLineage
