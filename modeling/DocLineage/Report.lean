import DocLineage.Doclet.ToMapping
import DocLineage.Json.Writer
import DocLineage.Resolution.Run

/-!
# The report

What a sequence of runs resolved and what it left behind. A doclet that is left waiting is listed
with the ancestors it waits for; from these lists follow the counts of missing ancestors.

## Main definitions

* `Report`, `Report.addRun` — the report, and the outcome of a further run
* `Report.missing` — how often each ancestor is waited for
* `Report.toValue` — the report as it is written
-/

namespace DocLineage

/-- A doclet that was left waiting, with the ancestors it waits for in order of declaration. -/
structure Unresolved where
  doclet : Option Text
  waitingOn : List Text
deriving DecidableEq, Repr

/-- The record of a dropped override as it is written. -/
def DroppedOverride.toValue (d : DroppedOverride) : Value :=
  .map [(.text "doclet", .text d.doclet), (.text "memberof", Value.ofText? d.memberof)]

/-- The record of an ignored tag as it is written. -/
def IgnoredTag.toValue (t : IgnoredTag) : Value :=
  .map [(.text "doclet", Value.ofText? t.doclet), (.text "tag", .text t.title),
    (.text "reason", .text t.problem.message)]

/-- The record of a doclet that was left waiting as it is written. -/
def Unresolved.toValue (u : Unresolved) : Value :=
  .map [(.text "doclet", Value.ofText? u.doclet),
    (.text "waiting_on", Value.ofTexts u.waitingOn)]

/-- What a sequence of runs resolved and what it left behind. -/
structure Report where
  /-- The fingerprint of the configuration that the doclets were resolved with. -/
  fingerprint : String
  runs : Nat := 0
  doclets : Nat := 0
  completed : Int := 0
  unresolved : List Unresolved := []
  /-- The records of dropped overrides as they are written. -/
  dropped : List Value := []
  /-- The records of ignored tags as they are written. -/
  ignored : List Value := []

namespace Report

/-- The doclets of a run that were left waiting. -/
def waiting (doclets : List Doclet) : List Unresolved :=
  doclets.filterMap fun d =>
    if d.isComplete then none else some ⟨d.label, d.pending.map PendingAncestor.identity⟩

/-- The report with the outcome of a further run. -/
def addRun (r : Report) (doclets : List Doclet) (completed : Int) (dropped ignored : List Value) :
    Report :=
  { r with
    runs := r.runs + 1
    doclets := r.doclets + doclets.length
    completed := r.completed + completed
    unresolved := r.unresolved ++ waiting doclets
    dropped := r.dropped ++ dropped
    ignored := r.ignored ++ ignored }

/-- The table with the count of a name raised by one. -/
def tally (counts : Table Text Nat) (name : Text) : Table Text Nat :=
  counts.insert name ((counts.get? name).getD 0 + 1)

/-- How often each ancestor is waited for, over all lists of all doclets that were left waiting. -/
def missing (r : Report) : Table Text Nat :=
  (r.unresolved.flatMap Unresolved.waitingOn).foldl tally .empty

/-- A count as a value. -/
def count (n : Nat) : Value := .int n

/-- The counts that sum up the report. -/
def stats (r : Report) : Mapping := [
  (.text "completed", .int r.completed),
  (.text "pending", count r.unresolved.length),
  (.text "dropped_overrides", count r.dropped.length),
  (.text "ignored_tags", count r.ignored.length),
  (.text "missing_ancestors", .map (r.missing.entries.map fun e => (.text e.1, count e.2)))]

/-- When the report was written, and how long the runs had taken by then. -/
structure Clock where
  timestamp : Binary64
  duration : Binary64

/-- The report as it is written at a time. -/
def toValue (r : Report) (clock : Clock) : Value := .map [
  (.text "meta", .map [
    (.text "timestamp", .scalar (.float clock.timestamp)),
    (.text "duration", .scalar (.float clock.duration)),
    (.text "config_hash", .text r.fingerprint),
    (.text "runs", count r.runs),
    (.text "total_doclets", count r.doclets)]),
  (.text "unresolved", .list (r.unresolved.map Unresolved.toValue)),
  (.text "dropped_overrides", .list r.dropped),
  (.text "ignored_tags", .list r.ignored),
  (.text "stats", .map r.stats)]

end Report

end DocLineage
