import DocLineage.Proofs.SeeLinks

/-!
# What a run keeps

A doclet changes in three ways only: it declares ancestors, it inherits from other doclets of the
run, and it waits for fewer of them. A property that these changes keep holds of every doclet when
the run is over, with or without a fault, if it held of every doclet when the run began.

## Main definitions

* `Persistent` — a property that no step of a run takes away

## Main results

* `Persistent.execution` — it holds in every state of a run
* `Persistent.runAll` — it holds when the run over a list of doclets is over, fault or no fault
-/

namespace DocLineage

/-- A property of the doclets at their places that no step of a run takes away. -/
structure Persistent (settings : Settings) (P : DocletId → Doclet → Prop) : Prop where
  links : ∀ {id : DocletId} {d d' : Doclet} {entries : List PendingAncestor},
    P id d → d.Links settings.addsSeeLinks d' entries → P id d'
  inherit : ∀ {id x : DocletId} {d ancestor : Doclet} (mode : InheritMode) (rank : Int),
    P id d → P x ancestor → P id (d.inherit ancestor mode settings.placeholder rank)
  pending : ∀ {id : DocletId} {d : Doclet} (pending : List PendingAncestor),
    P id d → P id { d with pending }

namespace Persistent

variable {settings : Settings} {P : DocletId → Doclet → Prop} {r₀ r r' : Run} {as : List Arrival}
  {ps : List Pass} {ws : List Wake} {busy : Option DocletId} {id : DocletId} {d : Doclet}

/-- Any number of merges keep the property if the ancestors have it. -/
theorem replay (h : Persistent settings P) {read : DocletId → Doclet} {ms : List Merge}
    (hread : ∀ x, P x (read x)) (hd : P id d) :
    P id (d.replay settings.placeholder read ms) := by
  induction ms generalizing d with
  | nil => exact hd
  | cons m ms ih => exact ih (h.inherit _ _ hd (hread m.ancestor))

/-- So does the first half of an arrival, even if it ends in a fault. -/
theorem declareAncestors (h : Persistent settings P) (hoverrides : r.registry.overrides = [])
    (hr : ∀ x, P x (r.doclet x)) (id x : DocletId) :
    P x ((r.declareAncestors settings id).1.doclet x) := by
  by_cases hx : x = id
  · subst hx
    obtain ⟨entries, hlinks⟩ := Run.links_declareAncestors settings hoverrides x
    exact h.links (hr x) hlinks
  · have hdeclares : Run.Declares id r (r.declareAncestors settings id).1 :=
      Run.declares_declareAncestors
    rw [hdeclares.doclet_of_ne x hx]
    exact hr x

/-- The property holds in every state of a run. -/
theorem execution (h : Persistent settings P) (h₀ : ∀ x, P x (r₀.doclet x))
    (hrun : Execution settings r₀ as ps r ws busy) : ∀ x, P x (r.doclet x) := by
  induction hrun with
  | begin => exact h₀
  | @declare as ps r r' id hrun _ _ _ hdeclared ih =>
    intro x
    have hx := h.declareAncestors hrun.linked.overrides ih id x
    rw [hdeclared] at hx
    exact hx
  | takeUp _ ih => exact ih
  | @advance as ps r ws id hrun ih =>
    intro x
    by_cases hx : x = id
    · -- what the step has merged is complete, so that it has the property as well
      subst hx
      rw [hrun.linked.doclet_advance_self]
      exact h.pending _ (h.replay ih (ih x))
    · rw [Run.doclet_advance, Run.doclet_pass_of_ne hx]
      exact ih x

/-- The property holds in every state that a run shows. -/
theorem shows (h : Persistent settings P) (h₀ : ∀ x, P x (r₀.doclet x)) {m : Stage}
    (hm : m.Occurs settings r₀) (hshows : m.Shows settings ps r) : ∀ x, P x (r.doclet x) := by
  have hnow : ∀ x, P x (m.run.doclet x) := h.execution h₀ hm
  cases hshows with
  | now => exact hnow
  | @partway id n hbusy =>
    have hlinked := hm.linked
    rw [hbusy] at hlinked
    intro x
    by_cases hx : x = id
    · subst hx
      rw [hlinked.doclet_partway_self]
      exact h.replay hnow (hnow x)
    · rw [Run.doclet_partway_of_ne hx]
      exact hnow x
  | @failed id _ _ _ _ _ hdeclared =>
    intro x
    have hx := h.declareAncestors hm.linked.overrides hnow id x
    rw [hdeclared] at hx
    exact hx

/-- The property holds when the run over a list of doclets is over, fault or no fault. -/
theorem runAll (h : Persistent settings P) {doclets : List Doclet}
    (hfresh : ∀ d ∈ doclets, d.IsFresh) (h₀ : ∀ x, P x ((Run.start doclets).doclet x)) :
    ∀ x, P x ((Resolution.runAll settings doclets).1.doclet x) := by
  obtain ⟨m, hm, hshows, -⟩ := Resolution.exists_shows hfresh
  exact h.shows h₀ hm hshows

end Persistent

end DocLineage
