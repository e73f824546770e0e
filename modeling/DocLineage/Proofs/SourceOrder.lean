import DocLineage.Proofs.Links
import DocLineage.Resolution.Resolve

/-!
# Runs over whole doclets

The states of a run between two arrivals, and the run over a list of doclets in source order. Both
are ends of executions.

## Main definitions

* `Run.Reaches` — the states of a run between two arrivals
* `Resolution.documented` — the places of the doclets that take part in a run
* `Resolution.recorded` — the ancestors that the doclet at a place declares when it arrives
* `Resolution.passes` — the passes of a run

## Main results

* `Run.Reaches.exists_execution` — a state between two arrivals is the end of an execution
* `Resolution.execution` — so is the state after a whole list of doclets
* `Resolution.snd_runAll` — a run fails only where members cannot be joined to their classes
-/

namespace DocLineage

/-- The states that a run over fresh doclets reaches between two arrivals, with the doclets that
have arrived. A run begins with an empty registry, no doclet arrives twice, and a fault ends it. -/
inductive Run.Reaches (settings : Settings) (r₀ : Run) : List DocletId → Run → Prop
  | begin : Reaches settings r₀ [] r₀.begin
  | feed {ids : List DocletId} {r : Run} {id : DocletId} :
      Reaches settings r₀ ids r →
      id ∉ ids → id < r₀.doclets.size → (r₀.doclet id).IsFresh →
      (r.feed settings id).2 = none →
      Reaches settings r₀ (ids ++ [id]) (r.feed settings id).1

/-- A state between two arrivals is the end of an execution. -/
theorem Run.Reaches.exists_execution {settings : Settings} {r₀ r : Run} {ids : List DocletId}
    (h : Run.Reaches settings r₀ ids r) :
    ∃ as ps, as.map Arrival.id = ids ∧ Execution settings r₀ as ps r [] none := by
  induction h with
  | begin => exact ⟨[], [], rfl, .begin⟩
  | @feed ids r id _ hid hsize hfresh hfault ih =>
    obtain ⟨as, ps, rfl, h⟩ := ih
    -- the doclet is still as it was when the run began
    rw [← h.size_eq] at hsize
    rw [← h.doclet_of_not_arrived hid] at hfresh
    refine ⟨_, _, ?_, h.feed hid hsize hfresh (Prod.ext rfl hfault)⟩
    rw [List.map_append]
    rfl

namespace Resolution

/-- The run when the doclet at a place is about to arrive. -/
def runBefore (settings : Settings) (doclets : List Doclet) (id : DocletId) : Run :=
  ((Run.start doclets).feedAll settings (List.range id)).1

/-- The doclet at a place when it has arrived and declared its ancestors. -/
def declared (settings : Settings) (doclets : List Doclet) (id : DocletId) : Doclet :=
  ((runBefore settings doclets id).declareAncestors settings id).1.doclet id

/-- The ancestors that the doclet at a place declares when it arrives, in order. -/
def recorded (settings : Settings) (doclets : List Doclet) (id : DocletId) :
    List PendingAncestor :=
  (declared settings doclets id).pending

/-- The doclet at a place takes part in a run. -/
def takesPart (settings : Settings) (doclets : List Doclet) (id : DocletId) : Bool :=
  !Run.isSkipped settings ((Run.start doclets).doclet id)

/-- The places of the doclets that take part in a run, in source order. -/
def documented (settings : Settings) (doclets : List Doclet) : List DocletId :=
  (List.range doclets.length).filter (takesPart settings doclets)

/-- The arrival of the doclet at a place. -/
def arrival (settings : Settings) (doclets : List Doclet) (id : DocletId) : Arrival :=
  ⟨id, declared settings doclets id⟩

/-- The passes that the arrival of the doclet at a place sets off. -/
def passesAt (settings : Settings) (doclets : List Doclet) (id : DocletId) : List Pass :=
  (runBefore settings doclets id).feedPasses settings id

/-- The passes of a run, in order. -/
def passes (settings : Settings) (doclets : List Doclet) : List Pass :=
  (documented settings doclets).flatMap (passesAt settings doclets)

variable {settings : Settings} {doclets : List Doclet} {run : Run} {id : DocletId}

theorem feedAll_append (r : Run) (ids ids' : List DocletId) :
    r.feedAll settings (ids ++ ids') =
      match r.feedAll settings ids with
      | (r', some fault) => (r', some fault)
      | (r', none) => r'.feedAll settings ids' := by
  induction ids generalizing r with
  | nil => rfl
  | cons id ids ih =>
    simp only [List.cons_append, Run.feedAll]
    split
    · exact ih r
    · split
      · rfl
      · exact ih _

theorem snd_feedAll (h : settings.CanJoin) (r : Run) (ids : List DocletId) :
    (r.feedAll settings ids).2 = none := by
  induction ids generalizing r with
  | nil => rfl
  | cons id ids ih =>
    rw [Run.feedAll]
    split
    · exact ih r
    · have hfault : (r.feed settings id).2 = none := Run.snd_feed h
      split
      · next hfeed =>
        rw [hfeed] at hfault
        cases hfault
      · exact ih _

/-- A run over any doclets ends without a fault if members can be joined to their classes. -/
theorem snd_runAll (h : settings.CanJoin) (doclets : List Doclet) :
    (runAll settings doclets).2 = none :=
  snd_feedAll h _ _

theorem doclet_start (h : id < doclets.length) :
    (Run.start doclets).doclet id = doclets[id] := by
  simp [Run.start, Run.doclet, h]

/-- As long as there is no fault, a run goes on with the doclet at the next place, unless that takes
no part. -/
theorem feedAll_range_succ {n : Nat}
    (h : ((Run.start doclets).feedAll settings (List.range n)).2 = none) :
    (Run.start doclets).feedAll settings (List.range (n + 1)) =
      if Run.isSkipped settings ((runBefore settings doclets n).doclet n) then
        (runBefore settings doclets n, none)
      else (runBefore settings doclets n).feed settings n := by
  have hbefore : (Run.start doclets).feedAll settings (List.range n) =
      (runBefore settings doclets n, none) := Prod.ext rfl h
  rw [List.range_succ, feedAll_append, hbefore]
  dsimp only
  rw [Run.feedAll]
  split
  · rfl
  · -- nothing comes after the doclet
    cases (runBefore settings doclets n).feed settings n with
    | mk r fault => cases fault <;> rfl

/-- A run that ends without a fault has none before. -/
theorem snd_feedAll_range_of_le {m n : Nat} (hle : m ≤ n)
    (h : ((Run.start doclets).feedAll settings (List.range n)).2 = none) :
    ((Run.start doclets).feedAll settings (List.range m)).2 = none := by
  induction hle with
  | refl => exact h
  | @step n _ ih =>
    apply ih
    rw [List.range_succ, feedAll_append] at h
    cases hbefore : (Run.start doclets).feedAll settings (List.range n) with
    | mk r fault =>
      rw [hbefore] at h
      cases fault with
      | none => rfl
      | some fault => cases h

/-- A doclet that comes next in source order arrives, unless it takes no part. -/
theorem execution_next {r₀ r : Run} {as : List Arrival} {ps : List Pass}
    (h : Execution settings r₀ as ps r [] none) (hid : id ∉ as.map Arrival.id)
    (hsize : id < r.doclets.size) (hfresh : (r.doclet id).IsFresh)
    (hrun : (r.feedAll settings [id]).2 = none) :
    Execution settings r₀
      (as ++ if Run.isSkipped settings (r.doclet id) then []
        else [⟨id, (r.declareAncestors settings id).1.doclet id⟩])
      (ps ++ if Run.isSkipped settings (r.doclet id) then [] else r.feedPasses settings id)
      (r.feedAll settings [id]).1 [] none := by
  rw [Run.feedAll] at hrun ⊢
  split
  · rw [List.append_nil, List.append_nil]
    exact h
  · next hskip =>
    rw [if_neg hskip] at hrun
    cases hfeed : r.feed settings id with
    | mk r' fault =>
      rw [hfeed] at hrun
      cases fault with
      | some fault => cases hrun
      | none => exact h.feed hid hsize hfresh hfeed

/-- The doclet at a place is not among those that arrive before it. -/
theorem not_mem_arrivals_upTo (settings : Settings) (doclets : List Doclet) (n : Nat) :
    n ∉ (((List.range n).filter (takesPart settings doclets)).map
      (arrival settings doclets)).map Arrival.id := by
  intro hmem
  rw [List.map_map, List.mem_map] at hmem
  obtain ⟨x, hx, heq⟩ := hmem
  rw [List.mem_filter, List.mem_range] at hx
  exact Nat.lt_irrefl n (heq ▸ hx.1)

/-- Up to every place the run is the end of an execution, as long as there is no fault. -/
theorem execution_upTo (hfresh : ∀ d ∈ doclets, d.IsFresh) {n : Nat}
    (hn : n ≤ doclets.length)
    (hrun : ((Run.start doclets).feedAll settings (List.range n)).2 = none) :
    Execution settings (Run.start doclets)
      (((List.range n).filter (takesPart settings doclets)).map (arrival settings doclets))
      (((List.range n).filter (takesPart settings doclets)).flatMap (passesAt settings doclets))
      (runBefore settings doclets n) [] none := by
  induction n with
  | zero => exact .begin
  | succ n ih =>
    rw [List.range_succ, feedAll_append] at hrun
    rw [runBefore, List.range_succ, feedAll_append, List.filter_append, List.map_append,
      List.flatMap_append]
    cases hbefore : (Run.start doclets).feedAll settings (List.range n) with
    | mk r fault =>
      rw [hbefore] at hrun
      cases fault with
      | some fault => cases hrun
      | none =>
        have h := ih (Nat.le_of_succ_le hn) (by rw [hbefore])
        have hr : runBefore settings doclets n = r := by rw [runBefore, hbefore]
        rw [hr] at h
        -- the doclet at the place has not been touched yet
        have hnot := not_mem_arrivals_upTo settings doclets n
        have hsame : r.doclet n = (Run.start doclets).doclet n := h.doclet_of_not_arrived hnot
        have hfreshn : (r.doclet n).IsFresh := by
          rw [hsame, doclet_start hn]
          exact hfresh _ (List.getElem_mem hn)
        have hsize : n < r.doclets.size := by
          rw [h.size_eq, Run.start, List.size_toArray]
          exact hn
        have hnext := execution_next h hnot hsize hfreshn hrun
        have hone : [n].filter (takesPart settings doclets) =
            if Run.isSkipped settings (r.doclet n) then [] else [n] := by
          rw [List.filter_singleton, takesPart, hsame]
          cases Run.isSkipped settings ((Run.start doclets).doclet n) <;> rfl
        rw [hone]
        -- a doclet that takes no part adds neither an arrival nor a pass
        by_cases hskip : Run.isSkipped settings (r.doclet n) = true
        · rw [if_pos hskip, if_pos hskip] at hnext
          rw [if_pos hskip]
          exact hnext
        · rw [if_neg hskip, if_neg hskip] at hnext
          rw [if_neg hskip, List.map_singleton, List.flatMap_singleton, passesAt, arrival, declared,
            hr]
          exact hnext

/-- The state after all doclets is the end of an execution, if there is no fault. -/
theorem execution (hfresh : ∀ d ∈ doclets, d.IsFresh)
    (hrun : runAll settings doclets = (run, none)) :
    Execution settings (Run.start doclets)
      ((documented settings doclets).map (arrival settings doclets)) (passes settings doclets) run
      [] none := by
  have hend : runBefore settings doclets doclets.length = run := by
    rw [runBefore, ← runAll, hrun]
  rw [← hend]
  exact execution_upTo hfresh (Nat.le_refl _) (by rw [← runAll, hrun])

end Resolution

end DocLineage
