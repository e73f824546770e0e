import DocLineage.Proofs.Overriding
import DocLineage.Proofs.Retention
import DocLineage.Proofs.RoundTrip

/-!
# What the counts of a report add up to

Every doclet of a run ends in one of three ways: it is complete, it is left waiting, or it takes no
part. A report counts one by one who is left waiting. What is complete it counts by the names that
have been registered, and nothing registers a doclet without a longname, nor a second one of the
same longname. So the counts add up to the doclets that the report has seen exactly if the complete
doclets of each run have longnames, all of them different.

## Main definitions

* `Resolution.Job` — a list of doclets to be resolved under a configuration
* `Job.completeNames`, `Job.skipped` — who is complete in the end, and how many take no part
* `Report.unaccounted` — how many doclets that a report has seen are counted nowhere

## Main results

* `Resolution.perm_keys_completed` — what is registered in the end
* `Resolution.Job.unaccounted_report` — one run leaves out the doclets that are not registered
* `Resolution.Job.counts_reportAll` — what any number of runs leave out
-/

namespace DocLineage

/-- How many of the doclets that a report has seen since an earlier state of it are counted nowhere:
neither as complete, nor as waiting, nor among those that took no part. -/
def Report.unaccounted (before after : Report) (skipped : Nat) : Int :=
  ((after.doclets : Int) - before.doclets) -
    ((after.completed - before.completed) +
      ((after.unresolved.length : Int) - before.unresolved.length) + skipped)

namespace Resolution

/-- The longnames of the doclets that take part and wait for nothing. -/
def completeNames (settings : Settings) (doclets : List Doclet) : List Text :=
  (doclets.filter fun d => !Run.isSkipped settings d && d.isComplete).map Doclet.longname

/-- The names under which doclets of some longnames are registered: each once, and only names that
are not empty. -/
def registered (names : List Text) : List Text := (names.filter (· ≠ [])).dedup

variable {config : Config} {settings : Settings} {doclets : List Doclet} {run : Run}
  {names : List Text} {n : Text}

/-! ### Names and doclets -/

theorem mem_registered : n ∈ registered names ↔ n ∈ names ∧ n ≠ [] := by
  simp [registered]

theorem registered_sublist (names : List Text) : (registered names).Sublist names :=
  (List.dedup_sublist _).trans List.filter_sublist

/-- Nothing is lost exactly if all names can be registered and no two of them are the same. -/
theorem length_registered_eq_iff :
    (registered names).length = names.length ↔ [] ∉ names ∧ names.Nodup := by
  constructor
  · intro hlength
    have heq : registered names = names := (registered_sublist names).eq_of_length hlength
    constructor
    · intro hnil
      rw [← heq, mem_registered] at hnil
      exact hnil.2 rfl
    · rw [← heq]
      exact List.nodup_dedup _
  · rintro ⟨hnil, hnodup⟩
    have hfilter : names.filter (· ≠ []) = names := by
      rw [List.filter_eq_self]
      rintro n hn
      simp only [decide_eq_true_eq]
      rintro rfl
      exact hnil hn
    rw [registered, hfilter, hnodup.dedup]

/-- Who takes no part waits for nothing, so that every doclet ends in exactly one of three ways. -/
theorem length_eq_add (h : ∀ d ∈ doclets, Run.isSkipped settings d = true → d.isComplete = true) :
    doclets.length = (completeNames settings doclets).length + (Report.waiting doclets).length +
      doclets.countP (Run.isSkipped settings) := by
  induction doclets with
  | nil => rfl
  | cons d doclets ih =>
    have hd := h d List.mem_cons_self
    have ih := ih fun d' hd' => h d' (List.mem_cons_of_mem d hd')
    rw [completeNames, List.length_map, Report.waiting] at ih ⊢
    rw [List.filter_cons, List.filterMap_cons, List.countP_cons, List.length_cons]
    cases hskip : Run.isSkipped settings d <;> cases hcomplete : d.isComplete
    · simp
      omega
    · simp
      omega
    · -- a doclet that is left waiting has taken part
      rw [hd hskip] at hcomplete
      cases hcomplete
    · simp
      omega

/-! ### The end of a run -/

/-- What is marked as undocumented is not changed by the run. -/
theorem undocumented_runAll (settings : Settings) (doclets : List Doclet) :
    (runAll settings doclets).1.fields Doclet.undocumented =
      (Run.start doclets).fields Doclet.undocumented :=
  Run.fields_feedAll Doclet.isFixed_undocumented (List.range doclets.length)

/-- Whether a doclet takes part is not changed by the run. -/
theorem isSkipped_runAll (settings : Settings) (doclets : List Doclet) (id : DocletId) :
    Run.isSkipped settings ((runAll settings doclets).1.doclet id) =
      Run.isSkipped settings ((Run.start doclets).doclet id) := by
  have hsame := Run.field_eq_of_fields_eq (undocumented_runAll settings doclets) id
  rw [Run.isSkipped, hsame, Run.isSkipped]

theorem mem_doclets_runAll (hfresh : ∀ d ∈ doclets, d.IsFresh)
    (hrun : runAll settings doclets = (run, none)) {d : Doclet} :
    d ∈ run.doclets.toList ↔ ∃ id < doclets.length, run.doclet id = d := by
  have hsize : run.doclets.size = doclets.length := by
    have hall : (runAll settings doclets).1.doclets.size = doclets.length := size_runAll hfresh
    rwa [hrun] at hall
  rw [Run.toList_doclets, hsize]
  simp

theorem map_id_arrivals (settings : Settings) (doclets : List Doclet) :
    ((documented settings doclets).map (arrival settings doclets)).map Arrival.id =
      documented settings doclets := by
  simp [arrival, Function.comp_def]

/-- A doclet that takes no part waits for nothing when the run is over. -/
theorem isComplete_of_isSkipped (hfresh : ∀ d ∈ doclets, d.IsFresh)
    (hrun : runAll settings doclets = (run, none)) {d : Doclet} (hd : d ∈ run.doclets.toList)
    (hskip : Run.isSkipped settings d = true) : d.isComplete = true := by
  obtain ⟨id, hid, rfl⟩ := (mem_doclets_runAll hfresh hrun).mp hd
  have hnot : id ∉ documented settings doclets := by
    intro hmem
    have hpart := (mem_documented.mp hmem).2
    rw [← isSkipped_runAll, hrun] at hpart
    cases hpart.symm.trans hskip
  rw [← map_id_arrivals] at hnot
  -- it is still as it was when the run began
  rw [(execution hfresh hrun).doclet_of_not_arrived hnot, doclet_start hid, Doclet.isComplete,
    (hfresh _ (List.getElem_mem hid)).pending]
  rfl

/-- What is registered when a run is over are the longnames of the doclets that take part and wait
for nothing. -/
theorem perm_keys_completed (hfresh : ∀ d ∈ doclets, d.IsFresh)
    (hrun : runAll settings doclets = (run, none)) :
    run.registry.completed.keys.Perm
      (registered (completeNames settings run.doclets.toList)) := by
  have hlinked := (execution hfresh hrun).linked
  have hnodup : run.registry.completed.keys.Nodup := run.registry.completed.nodup
  apply (List.perm_ext_iff_of_nodup hnodup (List.nodup_dedup _)).mpr
  intro n
  have hskipped : ∀ id, Run.isSkipped settings (run.doclet id) =
      Run.isSkipped settings ((Run.start doclets).doclet id) := by
    intro id
    have hsame := isSkipped_runAll settings doclets id
    rwa [hrun] at hsame
  change n ∈ run.registry.completed.keys ↔
    n ∈ registered (completeNames settings run.doclets.toList)
  simp only [mem_registered, completeNames, List.mem_map, List.mem_filter, Bool.and_eq_true,
    Bool.not_eq_true', mem_doclets_runAll hfresh hrun]
  constructor
  · -- who is registered under a name has arrived, goes by it and waits for nothing
    intro hn
    obtain ⟨id, hget⟩ := Option.isSome_iff_exists.mp (Table.contains_iff.mpr hn)
    obtain ⟨hne, harrived, hname, hnil⟩ := hlinked.completed n id hget
    rw [map_id_arrivals] at harrived
    obtain ⟨hid, hpart⟩ := mem_documented.mp harrived
    refine ⟨⟨run.doclet id, ⟨⟨id, hid, rfl⟩, ?_, ?_⟩, hname⟩, hne⟩
    · rw [hskipped, hpart]
    · exact List.isEmpty_iff.mpr hnil
  · -- and whoever waits for nothing in the end has been registered, if it has a name
    rintro ⟨⟨d, ⟨⟨id, hid, rfl⟩, hpart, hcomplete⟩, rfl⟩, hne⟩
    rw [hskipped] at hpart
    have ha : arrival settings doclets id ∈
        (documented settings doclets).map (arrival settings doclets) :=
      List.mem_map_of_mem (mem_documented.mpr ⟨hid, hpart⟩)
    exact Table.contains_iff.mp
      (hlinked.finished _ ha (by simp) (List.isEmpty_iff.mp hcomplete) hne)

/-- A run leaves as many doclets that take no part as it was given. -/
theorem countP_isSkipped_runAll (settings : Settings) (doclets : List Doclet) :
    (runAll settings doclets).1.doclets.toList.countP (Run.isSkipped settings) =
      doclets.countP (Run.isSkipped settings) := by
  have hfields : (runAll settings doclets).1.doclets.toList.map Doclet.undocumented =
      doclets.map Doclet.undocumented := undocumented_runAll settings doclets
  have hcount : ∀ ds : List Doclet, ds.countP (Run.isSkipped settings) =
      (ds.map Doclet.undocumented).countP (· && settings.skipsUndocumented) := by
    intro ds
    rw [List.countP_map]
    rfl
  rw [hcount, hfields, ← hcount]

/-! ### Runs that share a report -/

/-- A list of doclets to be resolved under a configuration. -/
structure Job where
  config : Config
  doclets : List Doclet

namespace Job

variable {job : Job} {jobs : List Job} {report report' : Report}

/-- The settings of a job that is done without a fault. -/
def done? (job : Job) : Option Settings :=
  if (resolve job.config job.doclets none).fault.isNone then
    (Settings.ofConfig job.config).toOption
  else none

/-- How many doclets of a job that is done take no part. -/
def skipped (job : Job) : Nat :=
  match job.done? with
  | some settings => job.doclets.countP (Run.isSkipped settings)
  | none => 0

/-- The longnames of the doclets of a job that is done that take part and wait for nothing. -/
def completeNames (job : Job) : List Text :=
  match job.done? with
  | some settings =>
    Resolution.completeNames settings (resolve job.config job.doclets none).doclets
  | none => []

/-- How many complete doclets are not registered, since they have no longname or share it. -/
def unregistered (job : Job) : Nat :=
  job.completeNames.length - (registered job.completeNames).length

/-- The report after a job. -/
def reportOn (job : Job) (report : Report) : Report :=
  ((resolve job.config job.doclets (some report)).report).getD report

/-- The report after some jobs, one after the other. -/
def reportAll (jobs : List Job) (report : Report) : Report :=
  jobs.foldl (fun report job => job.reportOn report) report

/-- A job is done if its titles are suitable and its run ends without a fault. -/
theorem done?_eq_some_iff : job.done? = some settings ↔
    Settings.ofConfig job.config = .ok settings ∧ (runAll settings job.doclets).2 = none := by
  unfold done? resolve
  cases hsettings : Settings.ofConfig job.config with
  | error fault => simp
  | ok settings' =>
    dsimp only
    constructor
    · intro h
      split at h
      · next hnone =>
        cases h
        exact ⟨rfl, Option.isNone_iff_eq_none.mp hnone⟩
      · cases h
    · rintro ⟨h, hnone⟩
      cases h
      exact if_pos (Option.isNone_iff_eq_none.mpr hnone)

/-- Whether a job is done does not depend on the report. -/
theorem exists_done?_of_fault (h : (resolve job.config job.doclets (some report)).fault = none) :
    ∃ settings, job.done? = some settings := by
  obtain ⟨settings, hsettings⟩ := settings_of_resolve h
  exact ⟨settings, done?_eq_some_iff.mpr hsettings⟩

/-- A job that is not done leaves the report alone. -/
theorem report_of_not_done (h : job.done? = none) (report : Report) :
    (resolve job.config job.doclets (some report)).report = some report := by
  unfold resolve
  cases hsettings : Settings.ofConfig job.config with
  | error fault => rfl
  | ok settings =>
    dsimp only
    cases hfault : (runAll settings job.doclets).2 with
    | some fault => rfl
    | none =>
      rw [done?_eq_some_iff.mpr ⟨hsettings, hfault⟩] at h
      cases h

theorem report_of_done (h : job.done? = some settings) (report : Report) :
    (resolve job.config job.doclets (some report)).report =
      some (reportRun report (runAll settings job.doclets).1) := by
  obtain ⟨hsettings, hnone⟩ := done?_eq_some_iff.mp h
  unfold resolve
  rw [hsettings]
  dsimp only
  rw [hnone]
  rfl

/-- A job that is done adds its doclets to those that the report has seen, and its counts leave out
the complete doclets that are not registered. -/
theorem unaccounted_report (hfresh : ∀ d ∈ job.doclets, d.IsFresh)
    (h : job.done? = some settings) (report : Report) :
    ∃ report', (resolve job.config job.doclets (some report)).report = some report' ∧
      report'.doclets = report.doclets + job.doclets.length ∧
      job.doclets.length = job.completeNames.length +
        (Report.waiting (resolve job.config job.doclets (some report)).doclets).length +
        job.skipped ∧
      report.unaccounted report' job.skipped = job.unregistered := by
  refine ⟨_, report_of_done h report, ?_⟩
  obtain ⟨hsettings, hnone⟩ := done?_eq_some_iff.mp h
  have hrun : runAll settings job.doclets = ((runAll settings job.doclets).1, none) :=
    Prod.ext rfl hnone
  have hnames : job.completeNames =
      Resolution.completeNames settings (runAll settings job.doclets).1.doclets.toList := by
    rw [completeNames, h, doclets_resolve, hsettings]
  have hskipped : job.skipped =
      (runAll settings job.doclets).1.doclets.toList.countP (Run.isSkipped settings) := by
    rw [skipped, h, countP_isSkipped_runAll]
  have hlength : (runAll settings job.doclets).1.doclets.toList.length = job.doclets.length := by
    rw [Array.length_toList, size_runAll hfresh]
  have hsize : (runAll settings job.doclets).1.registry.completed.size =
      (registered job.completeNames).length := by
    rw [hnames, ← (perm_keys_completed hfresh hrun).length_eq, Table.keys, List.length_map,
      Table.size]
  have hparts := length_eq_add fun _ => isComplete_of_isSkipped hfresh hrun
  have hle := (registered_sublist job.completeNames).length_le
  rw [hlength, ← hnames, ← hskipped] at hparts
  have hdoclets : (reportRun report (runAll settings job.doclets).1).doclets =
      report.doclets + job.doclets.length := congrArg (report.doclets + ·) hlength
  refine ⟨hdoclets, ?_, ?_⟩
  · rw [doclets_resolve, hsettings]
    exact hparts
  have hcompleted : (reportRun report (runAll settings job.doclets).1).completed =
      report.completed + (registered job.completeNames).length := by
    rw [← hsize]
    rfl
  have hunresolved : (reportRun report (runAll settings job.doclets).1).unresolved.length =
      report.unresolved.length +
        (Report.waiting (runAll settings job.doclets).1.doclets.toList).length :=
    List.length_append
  rw [Report.unaccounted, hdoclets, hcompleted, hunresolved, unregistered]
  omega

theorem unregistered_eq_zero_iff :
    job.unregistered = 0 ↔ [] ∉ job.completeNames ∧ job.completeNames.Nodup := by
  have hle := (registered_sublist job.completeNames).length_le
  rw [← length_registered_eq_iff, unregistered]
  omega

/-- What one job after another leaves out adds up. -/
theorem unaccounted_reportAll (hfresh : ∀ job ∈ jobs, ∀ d ∈ job.doclets, d.IsFresh)
    (report : Report) :
    report.unaccounted (reportAll jobs report) (jobs.map skipped).sum =
      (jobs.map unregistered).sum := by
  induction jobs generalizing report with
  | nil => simp [Report.unaccounted, reportAll]
  | cons job jobs ih =>
    have hrest := ih (fun job' hjob' => hfresh job' (List.mem_cons_of_mem _ hjob'))
      (job.reportOn report)
    have hfirst : report.unaccounted (job.reportOn report) job.skipped = job.unregistered := by
      cases hdone : job.done? with
      | some settings =>
        obtain ⟨report', hreport, -, -, hcounts⟩ :=
          unaccounted_report (hfresh job List.mem_cons_self) hdone report
        rw [reportOn, hreport]
        exact hcounts
      | none =>
        rw [reportOn, report_of_not_done hdone, unregistered, completeNames, skipped, hdone]
        simp [Report.unaccounted]
    have hall : reportAll (job :: jobs) report = reportAll jobs (job.reportOn report) := rfl
    simp only [Report.unaccounted, hall, List.map_cons, List.sum_cons] at hfirst hrest ⊢
    omega

/-- Every job that ends without a fault adds its doclets to those that the report has seen: each of
them is complete, or waits, or takes no part. The counts of the report leave out those that are
complete without being registered. So they add up, over any number of jobs, exactly if the complete
doclets of each job have longnames and no two of them the same one. -/
theorem counts_reportAll (hfresh : ∀ job ∈ jobs, ∀ d ∈ job.doclets, d.IsFresh)
    (report : Report) :
    (∀ job ∈ jobs, (resolve job.config job.doclets (some report)).fault = none →
      ∃ report', (resolve job.config job.doclets (some report)).report = some report' ∧
        report'.doclets = report.doclets + job.doclets.length ∧
        job.doclets.length = job.completeNames.length +
          (Report.waiting (resolve job.config job.doclets (some report)).doclets).length +
          job.skipped ∧
        report.unaccounted report' job.skipped = job.unregistered) ∧
    report.unaccounted (reportAll jobs report) (jobs.map skipped).sum =
      (jobs.map unregistered).sum ∧
    (report.unaccounted (reportAll jobs report) (jobs.map skipped).sum = 0 ↔
      ∀ job ∈ jobs, [] ∉ job.completeNames ∧ job.completeNames.Nodup) := by
  have hall := unaccounted_reportAll hfresh report
  refine ⟨fun job hjob hfault => ?_, hall, ?_⟩
  · obtain ⟨settings, hdone⟩ := exists_done?_of_fault hfault
    exact unaccounted_report (hfresh job hjob) hdone report
  · rw [hall, Int.natCast_eq_zero, List.sum_eq_zero_iff]
    simp only [List.forall_mem_map, unregistered_eq_zero_iff]

/-- Two doclets of one longname and one without a longname. -/
def twins : Job := ⟨Config.defaults, [.tagged "A" [], .tagged "A" [], .tagged "" []]⟩

/-- A doclet that inherits from another one, one that waits for what never comes, and one that takes
no part. -/
def assorted : Job :=
  ⟨Config.defaults, [.tagged "D" [("inheritdoc", "A")], .tagged "A" [],
    .tagged "B" [("inheritdoc", "X")], { longname := "A", undocumented := true }]⟩

theorem isFresh_twins : ∀ d ∈ twins.doclets, d.IsFresh := by
  simp [twins, Doclet.isFresh_tagged]

/-- Of the seven doclets of two jobs, two are counted nowhere. -/
theorem counts_reportAll_twins :
    (∀ job ∈ [twins, assorted], ∀ d ∈ job.doclets, d.IsFresh) ∧
      (reportAll [twins, assorted] { fingerprint := "" }).doclets = 7 ∧
      Report.unaccounted { fingerprint := "" } (reportAll [twins, assorted] { fingerprint := "" })
        ([twins, assorted].map skipped).sum = 2 := by
  have hfresh : ∀ job ∈ [twins, assorted], ∀ d ∈ job.doclets, d.IsFresh := by
    have hskipped : ({ longname := "A", undocumented := true } : Doclet).IsFresh :=
      ⟨rfl, rfl, rfl, rfl, rfl, rfl, rfl, rfl⟩
    simp only [List.mem_cons, List.not_mem_nil, or_false, forall_eq_or_imp, forall_eq]
    refine ⟨isFresh_twins, ?_⟩
    simp [assorted, Doclet.isFresh_tagged, hskipped]
  refine ⟨hfresh, by cbv, ?_⟩
  rw [(counts_reportAll hfresh _).2.1]
  cbv

/-- It is not so that each doclet that a report has seen is counted. -/
theorem not_counts_reportAll : ¬∀ (job : Job) (report report' : Report),
    (∀ d ∈ job.doclets, d.IsFresh) →
    (resolve job.config job.doclets (some report)).fault = none →
    (resolve job.config job.doclets (some report)).report = some report' →
    report.unaccounted report' job.skipped = 0 := by
  intro hall
  have hvalues : (resolve twins.config twins.doclets (some { fingerprint := "" })).report.map
      (fun report' => Report.unaccounted { fingerprint := "" } report' twins.skipped) =
        some 2 := by cbv
  obtain ⟨report', hreport, hcounts⟩ := Option.map_eq_some_iff.mp hvalues
  have hzero := hall twins _ report' isFresh_twins (by cbv) hreport
  rw [hzero] at hcounts
  cases hcounts

end Job

end Resolution

end DocLineage
