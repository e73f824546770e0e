import DocLineage.Proofs.Lookup
import DocLineage.Proofs.Loading
import DocLineage.Resolution.Resolve
import Mathlib

/-!
# How often an ancestor is missed

The report sums up what the doclets that were left waiting wait for. It goes through their lists and
counts each name as often as it stands there. A doclet that has declared an ancestor more than once
has it on its list more than once; so the count of an ancestor is the number of declarations that
wait for it, and not of doclets, unless no doclet has declared it twice.

## Main definitions

* `Report.Entry`, `Report.addAll` — runs that are added to a report one after the other
* `Unresolved.awaits` — a doclet was left waiting for a name

## Main results

* `Report.get?_foldl_tally` — counting names one after the other
* `Report.get?_missing` — the count of an ancestor is the number of declarations that wait for it
* `Report.missing_addAll` — the names that are counted, and when their counts are those of doclets
-/

namespace DocLineage

/-- The doclet was left waiting for the name. -/
def Unresolved.awaits (name : Text) (u : Unresolved) : Bool := u.waitingOn.contains name

/-- A list counts an element no less often than there are parts with it, and just as often if none
of the parts has it twice. -/
theorem count_flatMap_eq_countP_iff {α : Type} (f : α → List Text) (k : Text) (l : List α) :
    l.countP (fun a => (f a).contains k) ≤ (l.flatMap f).count k ∧
      ((l.flatMap f).count k = l.countP (fun a => (f a).contains k) ↔
        ∀ a ∈ l, (f a).count k ≤ 1) := by
  induction l with
  | nil => simp
  | cons a l ih =>
    obtain ⟨hle, hiff⟩ := ih
    rw [List.flatMap_cons, List.count_append, List.countP_cons, List.forall_mem_cons, ← hiff]
    by_cases hk : k ∈ f a
    · have hpos : 0 < (f a).count k := List.count_pos_iff.mpr hk
      rw [if_pos (List.contains_iff_mem.mpr hk)]
      omega
    · have hzero : (f a).count k = 0 := List.count_eq_zero.mpr hk
      rw [if_neg (by simpa using hk)]
      omega

namespace Report

variable {report : Report} {counts : Table Text Nat} {names : List Text} {k name : Text}

/-! ### Counting -/

theorem get?_tally : (tally counts name).get? k =
    if name = k then some ((counts.get? k).getD 0 + 1) else counts.get? k := by
  rw [tally, Table.get?_insert]
  split
  · next h => rw [h]
  · rfl

/-- Names that are counted one after the other are each counted as often as they come. -/
theorem get?_foldl_tally (counts : Table Text Nat) (names : List Text) (k : Text) :
    (names.foldl tally counts).get? k =
      if k ∈ names then some ((counts.get? k).getD 0 + names.count k) else counts.get? k := by
  induction names generalizing counts with
  | nil => simp
  | cons name names ih =>
    rw [List.foldl_cons, ih, get?_tally]
    by_cases hname : name = k
    · -- the name counts now, whether it comes again or not
      subst hname
      by_cases hmem : name ∈ names
      · simp [hmem]
        omega
      · simp [hmem, List.count_eq_zero.mpr hmem]
    · have hname' : k ≠ name := fun h => hname h.symm
      simp [hname, hname']

/-- An ancestor that some doclet was left waiting for is counted as often as it stands on the lists
of the doclets, and no other one is counted. -/
theorem get?_missing (report : Report) (k : Text) : report.missing.get? k =
    if ∃ u ∈ report.unresolved, k ∈ u.waitingOn then
      some ((report.unresolved.flatMap Unresolved.waitingOn).count k)
    else none := by
  rw [missing, get?_foldl_tally, Table.get?_empty]
  simp

/-! ### The summary -/

theorem count_inj {m n : Nat} : count m = count n ↔ m = n := by
  simp [count]

/-- What is found in a mapping that shows a table. -/
theorem find?_map_entries {α : Type} (f : α → Value) (es : List (Text × α)) (key : Scalar) :
    Mapping.find? (es.map fun e => (.text e.1, f e.2)) key =
      match key with
      | .text k => (Table.lookup k es).map f
      | _ => none := by
  induction es with
  | nil => cases key <;> rfl
  | cons e es ih =>
    rw [List.map_cons, Mapping.find?_cons, ih]
    split
    · next h =>
      cases Scalar.eq_of_sameKey_text h.symm
      simp [Table.lookup]
    · next h =>
      cases key with
      | text k =>
        have hne : ¬e.1 = k := fun heq => h (by rw [heq]; exact Scalar.sameKey_refl _)
        simp [Table.lookup, hne]
      | _ => rfl

/-- The summary shows the table of what is missing. -/
theorem get?_stats (report : Report) : Mapping.get? report.stats "missing_ancestors" =
    some (.map (report.missing.entries.map fun e => (.text e.1, count e.2))) := by
  simp [stats, Mapping.get?, Mapping.find?_cons]

/-! ### Runs -/

/-- A run as it is added to a report. -/
structure Entry where
  doclets : List Doclet
  completed : Int := 0
  dropped : List Value := []
  ignored : List Value := []

/-- The report with some runs added, one after the other. -/
def addAll (report : Report) (entries : List Entry) : Report :=
  entries.foldl (fun r e => r.addRun e.doclets e.completed e.dropped e.ignored) report

theorem unresolved_addAll (report : Report) (entries : List Entry) :
    (report.addAll entries).unresolved =
      report.unresolved ++ waiting (entries.flatMap Entry.doclets) := by
  induction entries generalizing report with
  | nil => exact (List.append_nil _).symm
  | cons e entries ih =>
    have hall : report.addAll (e :: entries) =
        (report.addRun e.doclets e.completed e.dropped e.ignored).addAll entries := rfl
    rw [hall, ih, List.flatMap_cons, waiting, waiting, List.filterMap_append,
      ← List.append_assoc]
    rfl

theorem mem_waiting {doclets : List Doclet} :
    (∃ u ∈ waiting doclets, k ∈ u.waitingOn) ↔
      ∃ d ∈ doclets, ∃ p ∈ d.pending, p.identity = k := by
  constructor
  · rintro ⟨u, hu, hk⟩
    obtain ⟨d, hd, hsome⟩ := List.mem_filterMap.mp hu
    split at hsome
    · cases hsome
    · cases hsome
      exact ⟨d, hd, List.mem_map.mp hk⟩
  · rintro ⟨d, hd, p, hp, rfl⟩
    -- a doclet with something pending is not complete, and so it is on the list
    have hopen : d.isComplete = false := by
      rw [Doclet.isComplete, List.isEmpty_eq_false_iff]
      exact List.ne_nil_of_mem hp
    refine ⟨⟨d.label, d.pending.map PendingAncestor.identity⟩, ?_, List.mem_map_of_mem hp⟩
    exact List.mem_filterMap.mpr ⟨d, hd, by simp [hopen]⟩

/-- Whatever a report and the runs added to it were waiting for is what the doclets of these runs
have pending, and what the report was waiting for before. -/
theorem exists_mem_unresolved_addAll {entries : List Entry} :
    (∃ u ∈ (report.addAll entries).unresolved, k ∈ u.waitingOn) ↔
      (∃ u ∈ report.unresolved, k ∈ u.waitingOn) ∨
        ∃ e ∈ entries, ∃ d ∈ e.doclets, ∃ p ∈ d.pending, p.identity = k := by
  rw [unresolved_addAll]
  simp only [List.mem_append, or_and_right, exists_or]
  rw [mem_waiting]
  simp only [List.mem_flatMap]
  constructor
  · rintro (h | ⟨d, ⟨e, he, hd⟩, hp⟩)
    · exact Or.inl h
    · exact Or.inr ⟨e, he, d, hd, hp⟩
  · rintro (h | ⟨e, he, d, hd, hp⟩)
    · exact Or.inl h
    · exact Or.inr ⟨d, ⟨e, he, hd⟩, hp⟩

/-- The names that the summary counts are exactly those that some doclet was left waiting for. The
count of a name is the number of declarations that wait for it; this is the number of doclets that
were left waiting for it exactly if none of them has it on its list twice. -/
theorem missing_addAll (report : Report) (entries : List Entry) :
    ∃ shown : Mapping,
      (report.addAll entries).stats.get? "missing_ancestors" = some (.map shown) ∧
      (∀ key, (shown.find? key).isSome = true ↔ ∃ k, key = .text k ∧
        ((∃ u ∈ report.unresolved, k ∈ u.waitingOn) ∨
          ∃ e ∈ entries, ∃ d ∈ e.doclets, ∃ p ∈ d.pending, p.identity = k)) ∧
      ∀ k v, shown.get? k = some v →
        v = count (((report.addAll entries).unresolved.flatMap Unresolved.waitingOn).count k) ∧
        (v = count ((report.addAll entries).unresolved.countP (Unresolved.awaits k)) ↔
          ∀ u ∈ (report.addAll entries).unresolved, u.waitingOn.count k ≤ 1) := by
  refine ⟨_, get?_stats _, fun key => ?_, fun k v hv => ?_⟩
  · rw [find?_map_entries]
    cases key with
    | text k =>
      change (((report.addAll entries).missing.get? k).map count).isSome = true ↔ _
      rw [get?_missing]
      simp only [Scalar.text.injEq, exists_eq_left', ← exists_mem_unresolved_addAll]
      split
      · next h => exact iff_of_true rfl h
      · next h => exact iff_of_false Bool.false_ne_true h
    | _ => simp
  · rw [Mapping.get?, find?_map_entries] at hv
    change ((report.addAll entries).missing.get? k).map count = some v at hv
    rw [get?_missing] at hv
    split at hv
    · cases hv
      refine ⟨rfl, ?_⟩
      rw [count_inj]
      exact (count_flatMap_eq_countP_iff Unresolved.waitingOn k _).2
    · cases hv

/-- A doclet that declares one missing ancestor in two ways, and one that declares it once. -/
def insistent : List Doclet :=
  [.tagged "D" [("inheritparams", "X"), ("inheritdoc", "X")],
    .tagged "E" [("inheritdoc", "X"), ("inheritdoc", "Y")]]

/-- The run over them, as it is added to a report. -/
def insistentRun : Entry := ⟨(Resolution.resolve Config.defaults insistent none).doclets, 0, [], []⟩

theorem values_insistent : Mapping.get? (addAll { fingerprint := "" } [insistentRun]).stats
      "missing_ancestors" = some (.map [(.text "X", .int 3), (.text "Y", .int 1)]) ∧
    (addAll { fingerprint := "" } [insistentRun]).unresolved =
      [⟨some "D", ["X", "X"]⟩, ⟨some "E", ["X", "Y"]⟩] := by
  constructor <;> cbv

/-- The one is counted twice, and so the count of what they wait for is not that of the doclets; for
what only one declaration waits for it is. -/
theorem missing_addAll_insistent : ∃ shown : Mapping,
    (addAll { fingerprint := "" } [insistentRun]).stats.get? "missing_ancestors" =
      some (.map shown) ∧
    shown.get? "X" = some (count 3) ∧
    (addAll { fingerprint := "" } [insistentRun]).unresolved.countP (Unresolved.awaits "X") = 2 ∧
    shown.get? "Y" =
      some (count ((addAll { fingerprint := "" } [insistentRun]).unresolved.countP
        (Unresolved.awaits "Y"))) := by
  obtain ⟨hstats, hunresolved⟩ := values_insistent
  obtain ⟨shown, hshown, -, hcounts⟩ := missing_addAll { fingerprint := "" } [insistentRun]
  rw [hstats] at hshown
  cases hshown
  refine ⟨_, hstats, rfl, by rw [hunresolved]; decide, ?_⟩
  have hy : Mapping.get? [(.text "X", .int 3), (.text "Y", .int 1)] "Y" = some (count 1) := rfl
  rw [hy, Option.some.injEq, (hcounts "Y" _ hy).2, hunresolved]
  decide

/-- It is not so that each name is counted once for each doclet that was left waiting for it. -/
theorem not_missing_addAll : ¬∀ (entries : List Entry) (shown : Mapping) (k : Text) (v : Value),
    (addAll { fingerprint := "" } entries).stats.get? "missing_ancestors" = some (.map shown) →
    shown.get? k = some v →
    v = count ((addAll { fingerprint := "" } entries).unresolved.countP (Unresolved.awaits k)) := by
  intro hall
  obtain ⟨hstats, hunresolved⟩ := values_insistent
  have hcount := hall [insistentRun] _ "X" (.int 3) hstats rfl
  rw [hunresolved] at hcount
  cases hcount

end Report

end DocLineage
