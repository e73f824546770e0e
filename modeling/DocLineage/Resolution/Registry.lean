import DocLineage.Doclet.Basic
import DocLineage.Table

/-!
# The registry of a run

Which doclets are complete, which ones wait, and for what. Doclets are known by their place of
arrival, so that several records of one name are kept apart.

## Main definitions

* `Registry` — the tables of a run
* `Registry.park` — a doclet waits for an ancestor
* `Registry.settle` — a named doclet is complete; what waited for it is set free
* `Registry.find?` — the doclet that goes by a name
-/

namespace DocLineage

/-- The tables of a resolution run. -/
structure Registry where
  /-- The complete doclet of each longname. -/
  completed : Table Text DocletId := .empty
  /-- The doclets that wait for each ancestor, in the order in which they began to. -/
  waitingFor : Table Text (List DocletId) := .empty
  /-- The doclet that waits under each longname. -/
  waiting : Table Text DocletId := .empty
  /-- The code identities for which an override was declared, each once. -/
  overrides : List Text := []
  /-- A run has begun and not ended. -/
  active : Bool := false
deriving Inhabited

namespace Registry

/-- The doclets that wait for an ancestor. -/
def waiters (r : Registry) (ancestor : Text) : List DocletId :=
  (r.waitingFor.get? ancestor).getD []

/-- The ids with one more, unless it is among them. -/
def addOnce (ids : List DocletId) (id : DocletId) : List DocletId :=
  if ids.contains id then ids else ids ++ [id]

/-- The doclet waits for the ancestor, and under its longname if it has one. -/
def park (r : Registry) (id : DocletId) (longname ancestor : Text) : Registry :=
  { r with
    waitingFor := r.waitingFor.insert ancestor (addOnce (r.waiters ancestor) id)
    waiting := if longname = [] then r.waiting else r.waiting.insert longname id }

/-- The named doclet is complete: it is entered as such, it no longer waits, and no one waits for
its name any more. -/
def settle (r : Registry) (id : DocletId) (longname : Text) : Registry :=
  { r with
    completed := r.completed.insert longname id
    waiting :=
      if r.waiting.get? longname = some id then r.waiting.erase longname else r.waiting
    waitingFor := r.waitingFor.erase longname }

/-- The doclet that goes by a longname: the complete one, or else the one that waits. -/
def find? (r : Registry) (longname : Text) : Option DocletId :=
  r.completed.get? longname <|> r.waiting.get? longname

/-- The registry with an override declared for a code identity. -/
def addOverride (r : Registry) (codeId : Text) : Registry :=
  { r with overrides := if r.overrides.contains codeId then r.overrides
                        else r.overrides ++ [codeId] }

/-- The registry without an override for the code identity. -/
def dropOverride (r : Registry) (codeId : Text) : Registry :=
  { r with overrides := r.overrides.filter (· != codeId) }

/-- The length of a list of waiters, counted only under a name that is complete. -/
def staleLength (completed : Table Text DocletId) (name : Text) (ids : List DocletId) : Nat :=
  if completed.contains name then ids.length else 0

/-- The number of doclets that wait for names that are complete already. None do in a run; only a
registry that was filled by hand can hold them. -/
def staleWaiters (r : Registry) : Nat :=
  Table.total (staleLength r.completed) r.waitingFor.entries

end Registry

end DocLineage
