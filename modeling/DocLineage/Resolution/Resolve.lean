import DocLineage.Report
import DocLineage.Resolution.Arrival

/-!
# Resolving a list of doclets

One run over doclets in source order: every doclet that takes part is fed to the run, and the
outcome is added to a report unless a fault ended the run.

## Main definitions

* `Resolution.Outcome` — the doclets, the journal and the report after a run
* `Resolution.resolve` — the run
-/

namespace DocLineage.Resolution

/-- What a run leaves: the doclets in source order, what was noted, and the report. -/
structure Outcome where
  doclets : List Doclet
  journal : List Notice
  report : Option Report
  fault : Option Fault

/-- The report with the outcome of a run. -/
def reportRun (report : Report) (run : Run) : Report :=
  report.addRun run.doclets.toList run.registry.completed.size
    (run.dropped.map DroppedOverride.toValue) (run.ignored.map IgnoredTag.toValue)

/-- The run over the doclets before it is finished, with the fault that ended it. -/
def runAll (settings : Settings) (doclets : List Doclet) : Run × Option Fault :=
  (Run.start doclets).feedAll settings (List.range doclets.length)

/-- Resolves inheritance among doclets given in source order. Unsuitable titles keep the run from
beginning. -/
def resolve (config : Config) (doclets : List Doclet) (report : Option Report) : Outcome :=
  match Settings.ofConfig config with
  | .error fault => { doclets, journal := [], report, fault }
  | .ok settings =>
    let (run, fault) := runAll settings doclets
    let finished := run.finish
    { doclets := finished.doclets.toList
      journal := finished.journal.toList
      report := if fault.isSome then report else report.map (reportRun · run)
      fault }

end DocLineage.Resolution
