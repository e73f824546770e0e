import DocLineage.Proofs.SourceOrder
import Mathlib

/-!
# Which names become complete

A set of names is closed if it holds the name of every doclet whose ancestors it holds. A run
completes the least closed set of names: whatever it completes is in every closed set, since the
ancestors of a doclet are complete before the doclet is; and when a run is over no one waits for a
name that is complete, so that the names it has completed are closed.

## Main definitions

* `Closed` — a set of names that holds the name of a doclet whenever it holds its ancestors
* `Resolution.declarations` — the names of the doclets of a run, with the ancestors they declare

## Main results

* `Execution.completed_subset` — whatever is complete is in every closed set
* `Linked.closed_completed` — the complete names are closed when there is no agenda
* `Resolution.isLeast_keys_completed` — the complete names are the least closed set
* `Resolution.pending_of_runAll` — what is pending when a run is over
* `Resolution.mem_completed_iff_of_declarations` — runs that record the same complete the same
-/

namespace DocLineage

/-- A set of names that holds the name of every doclet whose ancestors it holds. Anonymous doclets
have no name to hold. -/
def Closed (declarations : List (Text × List Text)) (names : Set Text) : Prop :=
  ∀ d ∈ declarations, d.1 ≠ [] → (∀ k ∈ d.2, k ∈ names) → d.1 ∈ names

/-- The name of a doclet that has arrived, with the ancestors that it has declared. -/
def Arrival.declaration (a : Arrival) : Text × List Text :=
  (a.declared.longname, a.declared.pending.map PendingAncestor.identity)

variable {settings : Settings} {r₀ r : Run} {as : List Arrival} {ps : List Pass} {ws : List Wake}
  {busy : Option DocletId} {id : DocletId} {names : Set Text} {k : Text}

/-- What a step completes is the doclet that was taken up, if nothing is left pending on it. -/
theorem Run.contains_completed_advance {placeholder : Value}
    (h : (r.advance placeholder id).1.registry.completed.contains k = true) :
    r.registry.completed.contains k = true ∨
      k = (r.doclet id).longname ∧ k ≠ [] ∧ stillPending r.registry (r.doclet id).pending = [] := by
  by_cases hrest : stillPending r.registry (r.doclet id).pending = []
  · rw [registry_advance_of_eq_nil hrest] at h
    split at h
    · exact Or.inl h
    · next hname =>
      rw [Registry.contains_completed_settle, Bool.or_eq_true, decide_eq_true_eq] at h
      rcases h with rfl | h
      · exact Or.inr ⟨rfl, hname, hrest⟩
      · exact Or.inl h
  · rw [advance_of_ne_nil hrest, completed_pass] at h
    exact Or.inl h

/-- Whatever is complete is in every closed set: when a doclet is completed, all the ancestors that
it has declared are complete. -/
theorem Execution.completed_subset (h : Execution settings r₀ as ps r ws busy)
    (hclosed : Closed (as.map Arrival.declaration) names)
    (hk : r.registry.completed.contains k = true) : k ∈ names := by
  induction h generalizing k with
  | begin => cases hk
  | declare _ _ _ _ hdeclared ih =>
    rw [(Run.declares_of_declareAncestors hdeclared).completed] at hk
    refine ih (fun d hd => hclosed d ?_) hk
    rw [List.map_append]
    exact List.mem_append_left _ hd
  | takeUp _ ih => exact ih hclosed hk
  | @advance _ _ r _ id h ih =>
    rcases Run.contains_completed_advance hk with hk | ⟨rfl, hname, hrest⟩
    · exact ih hclosed hk
    · -- all ancestors of the doclet are complete, and so they are in the set
      obtain ⟨a, ha, rfl⟩ := List.mem_map.mp (h.linked.arrived id rfl)
      rw [h.linked.longname a ha] at hname ⊢
      refine hclosed _ (List.mem_map_of_mem ha) hname fun k hk => ih hclosed ?_
      obtain ⟨e, he, rfl⟩ := List.mem_map.mp hk
      obtain ⟨gone, hgone, hpending⟩ := h.linked.pending a ha
      -- an ancestor that is not pending any more was complete before, the others are now
      cases hg : gone e.identity with
      | true => exact hgone _ hg
      | false =>
        have he : e ∈ (r.doclet a.id).pending := by
          rw [hpending, List.mem_filter, hg]
          exact ⟨he, rfl⟩
        have hopen := List.eq_nil_iff_forall_not_mem.mp hrest e
        rw [Run.stillPending, List.mem_filter, not_and, Bool.not_eq_true', Bool.not_eq_false]
          at hopen
        exact hopen he

namespace Linked

variable {a : Arrival}

/-- The complete names are closed when there is no agenda. -/
theorem closed_completed (h : Linked as r [] none) :
    Closed (as.map Arrival.declaration) {n | n ∈ r.registry.completed.keys} := by
  intro d hd hname hall
  obtain ⟨a, ha, rfl⟩ := List.mem_map.mp hd
  have hnil : (r.doclet a.id).pending = [] := by
    rw [h.pending_eq_nil_iff ha]
    exact fun e he => Table.contains_iff.mpr (hall _ (List.mem_map_of_mem he))
  -- a named doclet that waits for nothing is complete, as no one is busy
  have hlong := h.longname a ha
  have hfinished := h.finished a ha (by simp) hnil (by rw [hlong]; exact hname)
  rw [hlong] at hfinished
  exact Table.contains_iff.mp hfinished

end Linked

namespace Resolution

variable {doclets doclets' : List Doclet} {settings' : Settings} {run run' : Run}

/-- The names of the doclets that take part in a run, with the ancestors that they declare. -/
def declarations (settings : Settings) (doclets : List Doclet) : List (Text × List Text) :=
  (documented settings doclets).map fun id =>
    (((Run.start doclets).doclet id).longname,
      (recorded settings doclets id).map PendingAncestor.identity)

/-- In an execution over a list of doclets the declarations are those of the arrivals. -/
theorem map_declaration
    (h : Execution settings (Run.start doclets)
      ((documented settings doclets).map (arrival settings doclets)) ps run ws busy) :
    ((documented settings doclets).map (arrival settings doclets)).map Arrival.declaration =
      declarations settings doclets := by
  rw [List.map_map]
  apply List.map_congr_left
  intro id hid
  have hname := (h.declares _ (List.mem_map_of_mem hid)).2.longname
  exact Prod.ext hname rfl

/-- The names that a run completes are the least closed set. -/
theorem isLeast_keys_completed (hfresh : ∀ d ∈ doclets, d.IsFresh)
    (hrun : runAll settings doclets = (run, none)) :
    IsLeast {names | Closed (declarations settings doclets) names}
      {n | n ∈ run.registry.completed.keys} := by
  have h := execution hfresh hrun
  have hdeclarations := map_declaration h
  constructor
  · exact hdeclarations ▸ h.linked.closed_completed
  · intro names hnames n hn
    exact h.completed_subset (hdeclarations.symm ▸ hnames) (Table.contains_iff.mpr hn)

/-- A doclet has nothing pending in the end if all ancestors that it has declared are complete. -/
theorem pending_eq_nil_iff_of_runAll (hfresh : ∀ d ∈ doclets, d.IsFresh)
    (hrun : runAll settings doclets = (run, none)) (hid : id ∈ documented settings doclets) :
    (run.doclet id).pending = [] ↔
      ∀ e ∈ recorded settings doclets id, e.identity ∈ run.registry.completed.keys := by
  simp only [← Table.contains_iff]
  exact (execution hfresh hrun).linked.pending_eq_nil_iff (List.mem_map_of_mem hid)

/-- What is pending on a doclet in the end are the ancestors that are not complete. -/
theorem pending_of_runAll (hfresh : ∀ d ∈ doclets, d.IsFresh)
    (hrun : runAll settings doclets = (run, none)) (hid : id ∈ documented settings doclets) :
    (run.doclet id).pending = (recorded settings doclets id).filter fun e =>
      e.identity ∉ run.registry.completed.keys := by
  refine ((execution hfresh hrun).linked.pending_eq (List.mem_map_of_mem hid)).trans ?_
  apply List.filter_congr
  intro e _
  simp only [← Table.contains_iff, Bool.not_eq_true]
  cases run.registry.completed.contains e.identity <;> rfl

/-- Runs that record the same declarations complete the same names. -/
theorem mem_completed_iff_of_declarations (hfresh : ∀ d ∈ doclets, d.IsFresh)
    (hrun : runAll settings doclets = (run, none)) (hfresh' : ∀ d ∈ doclets', d.IsFresh)
    (hrun' : runAll settings' doclets' = (run', none))
    (hsame : ∀ d, d ∈ declarations settings doclets ↔ d ∈ declarations settings' doclets')
    (n : Text) :
    n ∈ run.registry.completed.keys ↔ n ∈ run'.registry.completed.keys := by
  -- closure depends on which declarations there are, not on their order
  have hclosed : ∀ names, Closed (declarations settings doclets) names ↔
      Closed (declarations settings' doclets') names := fun names =>
    forall_congr' fun d => imp_congr_left (hsame d)
  have hleast := isLeast_keys_completed hfresh hrun
  simp only [hclosed] at hleast
  have heq := hleast.unique (isLeast_keys_completed hfresh' hrun')
  exact Set.ext_iff.mp heq n

end Resolution

end DocLineage
