import DocLineage.Proofs.SourceOrder
import Mathlib.Logic.Relation

/-!
# Earlier and later in a run

An execution says which states a run can be in. To say what becomes of a doclet after the run has
been in a state, the steps of an execution are taken as a relation between stages. From one stage
to the next a run shows more states than the two at the ends: a pass changes its doclet by one
ancestor at a time, and an arrival may end in a fault.

## Main definitions

* `Stage`, `Stage.Occurs` — a state of an execution with all that led to it
* `Stage.Next`, `Stage.Later` — one step of a run, and any number of them
* `Run.partway` — a run in the middle of a pass
* `Stage.Shows` — the states that a run shows at a stage

## Main results

* `Stage.occurs_iff_later_begin` — what occurs is what comes later than the beginning
* `Execution.exists_stage_of_pass` — every pass of a run was made at an earlier stage of it
* `Resolution.exists_shows` — the state in which a run over a list of doclets ends is shown, fault
  or no fault
-/

namespace DocLineage

/-- A state of an execution: the arrivals and the passes so far, the doclets and the tables, the
agenda, and the doclet that is just being taken up. -/
structure Stage where
  arrivals : List Arrival
  passes : List Pass
  run : Run
  agenda : List Wake
  busy : Option DocletId

/-- A run in the middle of a pass over a doclet, when it has gone through some of the pending
ancestors. -/
def Run.partway (placeholder : Value) (r : Run) (id : DocletId) (n : Nat) : Run :=
  ((r.doclet id).pending.reverse.take n).foldl (visit placeholder id) r

/-- What has been merged in the middle of a pass over a doclet. -/
def Run.partialPass (r : Run) (id : DocletId) (n : Nat) : Pass :=
  ⟨id, r.registry.mergesOf ((r.doclet id).pending.reverse.take n)⟩

namespace Stage

/-- The stage before any doclet has arrived. -/
def begin (r₀ : Run) : Stage := ⟨[], [], r₀.begin, [], none⟩

/-- A run comes to the stage. -/
def Occurs (settings : Settings) (r₀ : Run) (m : Stage) : Prop :=
  Execution settings r₀ m.arrivals m.passes m.run m.agenda m.busy

/-- One step of a run: a doclet arrives and declares its ancestors, the front of the agenda is taken
up, or a pass is made over the doclet that is busy. -/
inductive Next (settings : Settings) : Stage → Stage → Prop
  | declare {as : List Arrival} {ps : List Pass} {r r' : Run} {id : DocletId} :
      id ∉ as.map Arrival.id → id < r.doclets.size → (r.doclet id).IsFresh →
      r.declareAncestors settings id = (r', none) →
      Next settings ⟨as, ps, r, [], none⟩ ⟨as ++ [⟨id, r'.doclet id⟩], ps, r', [], some id⟩
  | takeUp {as : List Arrival} {ps : List Pass} {r : Run} {w : Wake} {ws : List Wake} :
      Next settings ⟨as, ps, r, w :: ws, none⟩
        ⟨as, ps, r.note (.woken (r.doclet w.waiter).label w.ancestor), ws, some w.waiter⟩
  | advance {as : List Arrival} {ps : List Pass} {r : Run} {ws : List Wake} {id : DocletId} :
      Next settings ⟨as, ps, r, ws, some id⟩
        ⟨as, ps ++ [r.passOver id], (r.advance settings.placeholder id).1,
          (r.advance settings.placeholder id).2 ++ ws, none⟩

/-- A run comes from the first stage to the second. -/
def Later (settings : Settings) : Stage → Stage → Prop :=
  Relation.ReflTransGen (Next settings)

/-- The states that a run shows at a stage, with what has been passed over by then: the one that it
is in, those in the middle of the pass that is due, and the one in which a fault leaves it. -/
inductive Shows (settings : Settings) (m : Stage) : List Pass → Run → Prop
  | now : Shows settings m m.passes m.run
  | partway {id : DocletId} (n : Nat) :
      m.busy = some id →
      Shows settings m (m.passes ++ [m.run.partialPass id n])
        (m.run.partway settings.placeholder id n)
  | failed {id : DocletId} {r : Run} {fault : Fault} :
      m.agenda = [] → m.busy = none → id ∉ m.arrivals.map Arrival.id →
      m.run.declareAncestors settings id = (r, some fault) → Shows settings m m.passes r

variable {settings : Settings} {r₀ : Run} {m m' : Stage} {a : Arrival}

/-! ### One step, and many -/

theorem Occurs.next (h : m.Occurs settings r₀) (hnext : Next settings m m') :
    m'.Occurs settings r₀ := by
  cases hnext with
  | declare hid hsize hfresh hdeclared => exact Execution.declare h hid hsize hfresh hdeclared
  | takeUp => exact Execution.takeUp h
  | advance => exact Execution.advance h

theorem Occurs.later (h : m.Occurs settings r₀) (hlater : m.Later settings m') :
    m'.Occurs settings r₀ := by
  induction hlater with
  | refl => exact h
  | tail _ hnext ih => exact ih.next hnext

/-- A run comes to exactly the stages that come later than its beginning. -/
theorem occurs_iff_later_begin :
    m.Occurs settings r₀ ↔ (begin r₀).Later settings m := by
  constructor
  · intro h
    obtain ⟨as, ps, r, ws, busy⟩ := m
    unfold Occurs at h
    dsimp only at h
    induction h with
    | begin => exact .refl
    | declare _ hid hsize hfresh hdeclared ih => exact ih.tail (.declare hid hsize hfresh hdeclared)
    | takeUp _ ih => exact ih.tail .takeUp
    | advance _ ih => exact ih.tail .advance
  · have hbegin : (begin r₀).Occurs settings r₀ := Execution.begin
    exact hbegin.later

theorem Next.arrivals_subset (hnext : Next settings m m') : m.arrivals ⊆ m'.arrivals := by
  cases hnext with
  | declare => exact List.subset_append_left _ _
  | takeUp => exact fun _ ha => ha
  | advance => exact fun _ ha => ha

theorem Later.arrivals_subset (hlater : m.Later settings m') : m.arrivals ⊆ m'.arrivals := by
  induction hlater with
  | refl => exact fun _ ha => ha
  | tail _ hnext ih => exact fun _ ha => hnext.arrivals_subset (ih ha)

end Stage

/-- Every pass of a run was made at an earlier stage of it. -/
theorem Execution.exists_stage_of_pass {settings : Settings} {r₀ r : Run} {as : List Arrival}
    {ps before after : List Pass} {p : Pass} {ws : List Wake} {busy : Option DocletId}
    (h : Execution settings r₀ as ps r ws busy) (hps : ps = before ++ p :: after) :
    ∃ m : Stage, m.Occurs settings r₀ ∧ m.Later settings ⟨as, ps, r, ws, busy⟩ ∧
      m.passes = before ∧ m.busy = some p.doclet ∧ m.run.passOver p.doclet = p := by
  induction h generalizing after with
  | begin => cases List.append_eq_nil_iff.mp hps.symm |>.2
  | declare _ hid hsize hfresh hdeclared ih =>
    obtain ⟨m, hm, hlater, hrest⟩ := ih hps
    exact ⟨m, hm, hlater.tail (.declare hid hsize hfresh hdeclared), hrest⟩
  | takeUp _ ih =>
    obtain ⟨m, hm, hlater, hrest⟩ := ih hps
    exact ⟨m, hm, hlater.tail .takeUp, hrest⟩
  | @advance as ps r ws id h ih =>
    -- either the pass is the one of this step, or it was made before
    rcases List.eq_nil_or_concat after with rfl | ⟨after, q, rfl⟩
    · obtain ⟨rfl, hp⟩ := List.append_inj' hps rfl
      cases hp
      exact ⟨⟨as, ps, r, ws, some id⟩, h, .single .advance, rfl, rfl, rfl⟩
    · rw [List.concat_eq_append, ← List.cons_append, ← List.append_assoc] at hps
      obtain ⟨m, hm, hlater, hrest⟩ := ih (List.append_inj' hps rfl).1
      exact ⟨m, hm, hlater.tail .advance, hrest⟩

/-! ### In the middle of a pass -/

namespace Run

variable {placeholder : Value} {r : Run} {id x : DocletId} {n : Nat}

@[simp] theorem doclet_partialPass : (r.partialPass id n).doclet = id := rfl

/-- The middle of a pass over a doclet shows the other doclets as they are. -/
theorem doclet_partway_of_ne (h : x ≠ id) : (r.partway placeholder id n).doclet x = r.doclet x :=
  doclet_visits_of_ne h _

/-- There is no middle of a pass over a doclet that waits for nothing. -/
theorem partway_of_complete (h : (r.doclet id).pending = []) : r.partway placeholder id n = r := by
  rw [partway, h, List.reverse_nil, List.take_nil, List.foldl_nil]

theorem doclet_partway_of_complete (h : (r.doclet x).pending = []) :
    (r.partway placeholder id n).doclet x = r.doclet x := by
  by_cases hx : x = id
  · subst hx
    rw [partway_of_complete h]
  · exact doclet_partway_of_ne hx

/-- The next pending ancestor is visited where the pass has got to. -/
theorem partway_succ {e : PendingAncestor} (h : (r.doclet id).pending.reverse[n]? = some e) :
    r.partway placeholder id (n + 1) = (r.partway placeholder id n).visit placeholder id e := by
  rw [partway, List.take_add_one, h, Option.toList_some, List.foldl_append, ← partway]
  rfl

@[simp] theorem size_partway :
    (r.partway placeholder id n).doclets.size = r.doclets.size :=
  size_visits _

/-- No name becomes complete in the middle of a pass. -/
theorem completed_partway :
    (r.partway placeholder id n).registry.completed = r.registry.completed :=
  completed_visits ..

end Run

/-- A doclet that is busy has inherited, in the middle of a pass, what the pass has merged by
then. -/
theorem Linked.doclet_partway_self {as : List Arrival} {r : Run} {ws : List Wake} {id : DocletId}
    {placeholder : Value} {n : Nat} (h : Linked as r ws (some id)) :
    (r.partway placeholder id n).doclet id =
      (r.doclet id).replay placeholder r.doclet (r.partialPass id n).merges := by
  by_cases hnil : (r.doclet id).pending = []
  · rw [Run.partway_of_complete hnil, Run.partialPass, hnil, List.reverse_nil, List.take_nil]
    rfl
  · obtain ⟨a, ha, rfl⟩ := List.mem_map.mp (h.arrived id rfl)
    refine Run.doclet_visits_self (h.size a ha) (fun k hk => hnil ?_) _
    exact (h.completed k a.id hk).2.2.2

/-! ### The end of a run -/

namespace Resolution

variable {settings : Settings} {doclets : List Doclet}

/-- A run that ends in a fault shows it at the stage at which the doclet was about to arrive. -/
theorem exists_shows_of_fault (hfresh : ∀ d ∈ doclets, d.IsFresh) {n : Nat}
    (hn : n ≤ doclets.length)
    (hrun : ((Run.start doclets).feedAll settings (List.range n)).2 ≠ none) :
    ∃ m : Stage, m.Occurs settings (Run.start doclets) ∧
      m.Shows settings m.passes (runBefore settings doclets n) := by
  induction n with
  | zero => exact absurd rfl hrun
  | succ n ih =>
    rw [List.range_succ, feedAll_append] at hrun
    rw [runBefore, List.range_succ, feedAll_append]
    cases hbefore : (Run.start doclets).feedAll settings (List.range n) with
    | mk r fault =>
      rw [hbefore] at hrun
      cases fault with
      | some fault =>
        -- the fault came before this place, and the run went no further
        have h := ih (Nat.le_of_succ_le hn) (by rw [hbefore]; exact Option.some_ne_none fault)
        rwa [runBefore, hbefore] at h
      | none =>
        have h := execution_upTo hfresh (Nat.le_of_succ_le hn) (by rw [hbefore])
        rw [runBefore, hbefore] at h
        refine ⟨⟨_, _, r, [], none⟩, h, ?_⟩
        dsimp only at hrun ⊢
        rw [Run.feedAll] at hrun ⊢
        split at hrun
        · exact absurd rfl hrun
        · next hskip =>
          rw [if_neg hskip]
          rw [Run.feed_eq] at hrun ⊢
          cases hdeclared : r.declareAncestors settings n with
          | mk r' fault =>
            rw [hdeclared] at hrun
            cases fault with
            | some fault =>
              exact .failed rfl rfl (not_mem_arrivals_upTo settings doclets n) hdeclared
            | none => exact absurd rfl hrun

/-- A run over a list of doclets ends in a state that is shown. Without a fault, it shows it when
all passes have been made. -/
theorem exists_shows (hfresh : ∀ d ∈ doclets, d.IsFresh) :
    ∃ m : Stage, m.Occurs settings (Run.start doclets) ∧
      m.Shows settings m.passes (runAll settings doclets).1 ∧
      ((runAll settings doclets).2 = none → m.passes = passes settings doclets) := by
  cases hrun : runAll settings doclets with
  | mk run fault =>
    cases fault with
    | none => exact ⟨⟨_, _, run, [], none⟩, execution hfresh hrun, .now, fun _ => rfl⟩
    | some fault =>
      have hfault :
          ((Run.start doclets).feedAll settings (List.range doclets.length)).2 ≠ none := by
        rw [← runAll, hrun]
        exact Option.some_ne_none fault
      obtain ⟨m, hm, hshows⟩ := exists_shows_of_fault hfresh (Nat.le_refl _) hfault
      rw [runBefore, ← runAll, hrun] at hshows
      exact ⟨m, hm, hshows, fun hnone => absurd hnone (Option.some_ne_none fault)⟩

end Resolution

end DocLineage
