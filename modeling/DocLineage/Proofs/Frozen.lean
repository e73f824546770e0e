import DocLineage.Proofs.Prose
import DocLineage.Proofs.Stages

/-!
# Complete doclets do not change

As soon as nothing is pending on a doclet that has arrived, the doclet stays as it is: no later
arrival declares anything on it, and a pass over it has nothing to go through, however often it is
woken. Only complete doclets are inherited from, so that every merge reads of its ancestor what is
there when the run is over.

## Main results

* `Stage.Next.doclet_of_complete` — one step leaves a complete doclet as it is
* `Stage.frozen_of_complete` — so does all the rest of a run, and every merge has read what is there
  at the end
-/

namespace DocLineage.Stage

variable {settings : Settings} {r₀ r : Run} {m m' : Stage} {a : Arrival} {ps : List Pass}
  {id x : DocletId} {e : PendingAncestor} {n : Nat}

/-- One step leaves a complete doclet as it is. -/
theorem Next.doclet_of_complete (hnext : Next settings m m') (ha : a ∈ m.arrivals)
    (hnil : (m.run.doclet a.id).pending = []) : m'.run.doclet a.id = m.run.doclet a.id := by
  cases hnext with
  | declare hid _ _ hdeclared =>
    -- the doclet that declares its ancestors is another one, since this one has arrived before
    exact Run.doclet_of_declareAncestors hdeclared hid (List.mem_map_of_mem ha)
  | takeUp => rfl
  | advance => exact Run.doclet_advance_of_complete hnil

/-- Any number of steps leave a complete doclet as it is. -/
theorem Later.doclet_of_complete (hlater : m.Later settings m') (ha : a ∈ m.arrivals)
    (hnil : (m.run.doclet a.id).pending = []) : m'.run.doclet a.id = m.run.doclet a.id := by
  induction hlater with
  | refl => rfl
  | tail hlater hnext ih =>
    have hstep := hnext.doclet_of_complete (Later.arrivals_subset hlater ha) (by rw [ih, hnil])
    exact hstep.trans ih

/-- Whatever a run shows at a stage, it shows the complete doclets as they are. -/
theorem Shows.doclet_of_complete (hshows : m.Shows settings ps r) (ha : a ∈ m.arrivals)
    (hnil : (m.run.doclet a.id).pending = []) : r.doclet a.id = m.run.doclet a.id := by
  cases hshows with
  | now => rfl
  | partway n _ => exact Run.doclet_partway_of_complete hnil
  | failed _ _ hid hdeclared =>
    exact Run.doclet_of_declareAncestors hdeclared hid (List.mem_map_of_mem ha)

/-- What a pass is about to merge is complete and has arrived. -/
theorem Occurs.of_get?_completed (hm : m.Occurs settings r₀)
    (hget : m.run.registry.completed.get? e.identity = some x) :
    ∃ a ∈ m.arrivals, a.id = x ∧ (m.run.doclet a.id).pending = [] := by
  obtain ⟨-, harrived, -, hnil⟩ := hm.linked.completed _ _ hget
  obtain ⟨a, ha, rfl⟩ := List.mem_map.mp harrived
  exact ⟨a, ha, rfl, hnil⟩

/-- A doclet on which nothing is pending any more stays as it is in all that the run shows from then
on. So whenever a pass merges an ancestor, wherever it has got to, it merges what the run shows of
the ancestor from then on, up to its end. -/
theorem frozen_of_complete (hm : m.Occurs settings r₀) (hlater : m.Later settings m')
    (hshows : m'.Shows settings ps r) :
    (∀ a ∈ m.arrivals, (m.run.doclet a.id).pending = [] → r.doclet a.id = m.run.doclet a.id) ∧
      ∀ id n e x, m.busy = some id → (m.run.doclet id).pending.reverse[n]? = some e →
        (m.run.partway settings.placeholder id n).registry.completed.get? e.identity = some x →
        (m.run.partway settings.placeholder id n).doclet x = r.doclet x ∧
        (m.run.partway settings.placeholder id (n + 1)).doclet id =
          ((m.run.partway settings.placeholder id n).doclet id).inherit (r.doclet x) e.mode
            settings.placeholder e.rank := by
  have hfrozen : ∀ a ∈ m.arrivals, (m.run.doclet a.id).pending = [] →
      r.doclet a.id = m.run.doclet a.id := by
    intro a ha hnil
    have hsame : m'.run.doclet a.id = m.run.doclet a.id := hlater.doclet_of_complete ha hnil
    rw [← hsame] at hnil ⊢
    exact hshows.doclet_of_complete (hlater.arrivals_subset ha) hnil
  refine ⟨hfrozen, ?_⟩
  intro id n e x hbusy he hget
  have hread : (m.run.partway settings.placeholder id n).doclet x = r.doclet x := by
    rw [Run.completed_partway] at hget
    obtain ⟨a, ha, rfl, hnil⟩ := hm.of_get?_completed hget
    rw [Run.doclet_partway_of_complete hnil, hfrozen a ha hnil]
  refine ⟨hread, ?_⟩
  obtain ⟨a, ha, rfl⟩ := List.mem_map.mp (hm.linked.arrived id hbusy)
  rw [Run.partway_succ he, Run.doclet_visit_self _ hget, hread]
  rw [Run.size_partway]
  exact hm.linked.size a ha

/-- A doclet that inherits from the first of two doclets of one name. -/
def succession : List Doclet :=
  [.tagged "D" [⟨"inheritdoc", "A"⟩],
    (Doclet.tagged "A" []).described "of A",
    (Doclet.tagged "A" []).described "of another A"]

theorem isFresh_succession : ∀ d ∈ succession, d.IsFresh := by
  simp [succession, Doclet.isFresh_tagged, Doclet.IsFresh.described]

theorem passes_succession : Resolution.passes .standard succession =
    [⟨0, []⟩, ⟨1, []⟩] ++ ⟨0, [⟨1, ⟨"A", .full, 0⟩⟩]⟩ :: [⟨2, []⟩] := by
  cbv

/-- What was merged of the first doclet of the name is what is there at the end, when another doclet
is complete under the name. -/
theorem frozen_of_complete_succession : ∃ (m m' : Stage) (n : Nat),
    m.Occurs .standard (Run.start succession) ∧ m.Later .standard m' ∧
      m'.Shows .standard m'.passes (Resolution.runAll .standard succession).1 ∧ m.busy = some 0 ∧
      (m.run.partway (.text "undocumented") 0 n).registry.completed.get? "A" = some 1 ∧
      ((m.run.partway (.text "undocumented") 0 n).doclet 1).description.text = some "of A" ∧
      (Resolution.runAll .standard succession).1.registry.completed.get? "A" = some 2 := by
  have hnone : (Resolution.runAll .standard succession).2 = none :=
    Resolution.snd_runAll Settings.canJoin_standard succession
  have hvalues : ((Resolution.runAll .standard succession).1.registry.completed.get? "A",
      ((Resolution.runAll .standard succession).1.doclet 1).description.text) =
      (some 2, some (Text.ofString "of A")) := by cbv
  simp only [Prod.mk.injEq] at hvalues
  obtain ⟨hlast, htext⟩ := hvalues
  have h := Resolution.execution isFresh_succession (Prod.ext rfl hnone)
  obtain ⟨m, hm, hlater, -, hbusy, hpass⟩ := h.exists_stage_of_pass passes_succession
  -- the pass merges the first doclet called A, from one of the pending ancestors
  have hmerge : (⟨1, ⟨"A", .full, 0⟩⟩ : Merge) ∈ m.run.merges 0 := by
    have hmerges : m.run.merges 0 = [⟨1, ⟨"A", .full, 0⟩⟩] := congrArg Pass.merges hpass
    rw [hmerges]
    exact List.mem_cons_self
  obtain ⟨hpending, hget⟩ := Run.mem_merges.mp hmerge
  obtain ⟨n, hn⟩ := List.mem_iff_getElem?.mp (List.mem_reverse.mpr hpending)
  have hget' : (m.run.partway (.text "undocumented") 0 n).registry.completed.get? "A" =
      some 1 := by
    rw [Run.completed_partway]
    exact hget
  have hread := ((frozen_of_complete hm hlater .now).2 0 n _ 1 hbusy hn hget').1
  refine ⟨m, _, n, hm, hlater, .now, hbusy, hget', ?_, hlast⟩
  exact (congrArg (fun d => d.description.text) hread).trans htext

end DocLineage.Stage
