import DocLineage.Resolution.Cascade
import DocLineage.Resolution.Declaration
import DocLineage.Value.Display

/-!
# Arriving doclets

A doclet arrives with its own declarations recorded. If it overrides a member, the superclasses of
its enclosing class name its ancestors; then it inherits what it can, and completes or waits.

## Main definitions

* `Run.wantsExpansion`, `Run.expand` — an override turned into ancestors
* `Run.arrive` — the arrival of a doclet
* `Run.feed`, `Run.feedAll` — the tags and the arrival of one doclet, and of many in order
* `Run.begin`, `Run.finish` — the ends of a run
-/

namespace DocLineage

namespace Run

/-- An override was declared for the code of the doclet. -/
def wantsExpansion (r : Run) (id : DocletId) : Bool :=
  match (r.doclet id).codeId with
  | none | some [] => false
  | some codeId => r.registry.overrides.contains codeId

/-- The doclet inherits everything from the same member of one superclass. -/
def declareMember (settings : Settings) (separator : Text) (id : DocletId) (r : Run)
    (superclass : Text) : Run :=
  let ancestor := superclass ++ separator ++ (r.doclet id).name
  (r.declare id ancestor .full).update id fun d => d.addLink settings.addsSeeLinks ancestor

/-- The class that encloses a doclet, if it has arrived. -/
def enclosingClass? (r : Run) (id : DocletId) : Option DocletId :=
  match (r.doclet id).memberof with
  | none | some [] => none
  | some name => r.registry.find? name

/-- An override without an enclosing class is dropped, with a record. -/
def dropOverride (r : Run) (id : DocletId) : Run :=
  let d := r.doclet id
  { r.note (.noEnclosingClass d.memberof d.memberName) with
    dropped := r.dropped ++ [⟨d.memberName, d.memberof⟩] }

/-- The override of a doclet is turned into ancestors: the same member of every class that the
enclosing class extends. A fault leaves the run as it was when the separator was asked for. -/
def expand (settings : Settings) (r : Run) (id : DocletId) : Run × Option Fault :=
  let r := { r with registry := r.registry.dropOverride ((r.doclet id).codeId.getD []) }
  match r.enclosingClass? id with
  | none => (r.dropOverride id, none)
  | some enclosing =>
    let r := r.update id fun d => { d with enclosing := some enclosing }
    match settings.separators with
    | .error fault => (r, some fault)
    | .ok separators =>
      match (r.doclet enclosing).superclasses, (separators.of (r.doclet id).scope).toText with
      | [], _ => (r, none)
      | _, .error fault => (r, some fault)
      | superclasses, .ok separator =>
        (superclasses.foldl (declareMember settings separator id) r, none)

/-- A doclet with its declarations recorded is completed, or taken up. -/
def receive (settings : Settings) (r : Run) (id : DocletId) : Run :=
  if (r.doclet id).isComplete then r.complete settings.placeholder id
  else r.process settings.placeholder id

/-- A doclet arrives. -/
def arrive (settings : Settings) (r : Run) (id : DocletId) : Run × Option Fault :=
  if r.wantsExpansion id then
    match r.expand settings id with
    | (r, some fault) => (r, some fault)
    | (r, none) => (r.receive settings id, none)
  else (r.receive settings id, none)

/-- The tags of a doclet are applied, then it arrives. -/
def feed (settings : Settings) (r : Run) (id : DocletId) : Run × Option Fault :=
  (r.applyTags settings id).arrive settings id

/-- The doclet takes no part in a run. -/
def isSkipped (settings : Settings) (d : Doclet) : Bool :=
  d.undocumented && settings.skipsUndocumented

/-- Many doclets in order, up to the first fault. Those that take no part are left alone. -/
def feedAll (settings : Settings) (r : Run) : List DocletId → Run × Option Fault
  | [] => (r, none)
  | id :: ids =>
    if isSkipped settings (r.doclet id) then r.feedAll settings ids
    else
      match r.feed settings id with
      | (r, some fault) => (r, some fault)
      | (r, none) => r.feedAll settings ids

/-- The run before any of its doclets has arrived. -/
def start (doclets : List Doclet) : Run :=
  { doclets := doclets.toArray, registry := { active := true } }

/-- A run begins with an empty registry. -/
def begin (r : Run) : Run := { r with registry := { active := true } }

/-- A run ends: ancestors that are still waited for are noted, and the registry is emptied. -/
def finish (r : Run) : Run :=
  let waited := r.registry.waitingFor.keys
  let noted := if waited.isEmpty then r else r.note (.unresolvedAtEnd (waited.mergeSort Text.le))
  { noted with registry := {} }

end Run

end DocLineage
