import DocLineage.Proofs.Declaring
import DocLineage.Proofs.Loading

/-!
# Executions

A run taken apart into steps. When there is nothing left to take up, a doclet arrives and declares
its ancestors; while there is an agenda, the doclet at its front is taken up. Either way one doclet
is busy, and the next step is a pass over it, which may complete it. Every state of a run, in the
middle of a cascade or between two arrivals, is the end of an execution.

## Main definitions

* `Arrival` — a doclet that has arrived, as it was when it had declared its ancestors
* `Pass` — a pass over a doclet, with what was merged in it
* `Execution` — the states of a run, with the arrivals and the passes that led to them
* `Run.cascadePasses`, `Run.feedPasses` — the passes of a cascade, and those of an arrival

## Main results

* `Execution.cascade` — a cascade is an execution that works off the agenda
* `Execution.feed` — an arrival, with all that it sets off, is an execution
-/

namespace DocLineage

/-- A doclet that has arrived. -/
structure Arrival where
  id : DocletId
  /-- The doclet when it had declared its ancestors, before the first pass over it. -/
  declared : Doclet

/-- A doclet that has arrived is not touched when another one declares its ancestors. -/
theorem Run.doclet_of_declareAncestors {settings : Settings} {r r' : Run} {as : List Arrival}
    {id x : DocletId} {fault : Option Fault}
    (hdeclared : r.declareAncestors settings id = (r', fault)) (hid : id ∉ as.map Arrival.id)
    (hx : x ∈ as.map Arrival.id) : r'.doclet x = r.doclet x := by
  refine (declares_of_declareAncestors hdeclared).doclet_of_ne x ?_
  rintro rfl
  exact hid hx

/-- A pass over a doclet. -/
structure Pass where
  doclet : DocletId
  /-- What was merged in the pass, in order. -/
  merges : List Merge

/-- The pass that is about to be made over a doclet. -/
def Run.passOver (r : Run) (id : DocletId) : Pass := ⟨id, r.merges id⟩

/-- The passes by which an agenda is worked off. -/
def Run.cascadePasses (placeholder : Value) (r : Run) : List Wake → List Pass
  | [] => []
  | w :: ws =>
    (r.note (.woken (r.doclet w.waiter).label w.ancestor)).passOver w.waiter ::
      cascadePasses placeholder (r.takeUp placeholder w).1 ((r.takeUp placeholder w).2 ++ ws)
termination_by ws => (r.openNames, r.owed + ws.length)
decreasing_by exact takeUp_lowers placeholder r w ws

/-- The passes that the arrival of a doclet sets off, unless it ends in a fault. -/
def Run.feedPasses (settings : Settings) (r : Run) (id : DocletId) : List Pass :=
  match r.declareAncestors settings id with
  | (_, some _) => []
  | (r, none) =>
    r.passOver id :: (r.advance settings.placeholder id).1.cascadePasses settings.placeholder
      (r.advance settings.placeholder id).2

/-- The states that a run passes through on fresh doclets, each with the arrivals so far, the passes
so far, the agenda, and the doclet that is just being taken up. -/
inductive Execution (settings : Settings) (r₀ : Run) :
    List Arrival → List Pass → Run → List Wake → Option DocletId → Prop
  | begin : Execution settings r₀ [] [] r₀.begin [] none
  | declare {as : List Arrival} {ps : List Pass} {r r' : Run} {id : DocletId} :
      Execution settings r₀ as ps r [] none →
      id ∉ as.map Arrival.id → id < r.doclets.size → (r.doclet id).IsFresh →
      r.declareAncestors settings id = (r', none) →
      Execution settings r₀ (as ++ [⟨id, r'.doclet id⟩]) ps r' [] (some id)
  | takeUp {as : List Arrival} {ps : List Pass} {r : Run} {w : Wake} {ws : List Wake} :
      Execution settings r₀ as ps r (w :: ws) none →
      Execution settings r₀ as ps (r.note (.woken (r.doclet w.waiter).label w.ancestor)) ws
        (some w.waiter)
  | advance {as : List Arrival} {ps : List Pass} {r : Run} {ws : List Wake} {id : DocletId} :
      Execution settings r₀ as ps r ws (some id) →
      Execution settings r₀ as (ps ++ [r.passOver id]) (r.advance settings.placeholder id).1
        ((r.advance settings.placeholder id).2 ++ ws) none

namespace Execution

variable {settings : Settings} {r₀ r r' : Run} {as : List Arrival} {ps : List Pass}
  {ws : List Wake} {id : DocletId}

/-- A cascade works off the agenda. -/
theorem cascade (h : Execution settings r₀ as ps r ws none) :
    Execution settings r₀ as (ps ++ r.cascadePasses settings.placeholder ws)
      (r.cascade settings.placeholder ws) [] none := by
  induction r, ws using Run.cascade.induct settings.placeholder generalizing ps with
  | case1 r =>
    rw [Run.cascade, Run.cascadePasses, List.append_nil]
    exact h
  | case2 r w ws ih =>
    -- what the doclet at the front wakes is worked off before the rest
    rw [Run.cascade, Run.cascadePasses, List.append_cons]
    exact ih h.takeUp.advance

/-- An arrival without a fault, with all that it sets off, leads to a state without an agenda. -/
theorem feed (h : Execution settings r₀ as ps r [] none) (hid : id ∉ as.map Arrival.id)
    (hsize : id < r.doclets.size) (hfresh : (r.doclet id).IsFresh)
    (hfeed : r.feed settings id = (r', none)) :
    Execution settings r₀ (as ++ [⟨id, (r.declareAncestors settings id).1.doclet id⟩])
      (ps ++ r.feedPasses settings id) r' [] none := by
  rw [Run.feed_eq] at hfeed
  split at hfeed
  · cases hfeed
  · next declared hdeclared =>
    cases hfeed
    have hadvance := (h.declare hid hsize hfresh hdeclared).advance
    rw [List.append_nil] at hadvance
    have hcascade := hadvance.cascade
    rw [← List.append_cons] at hcascade
    rw [Run.feedPasses, hdeclared]
    exact hcascade

end Execution

end DocLineage
