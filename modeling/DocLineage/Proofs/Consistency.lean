import DocLineage.Proofs.SourceOrder
import Mathlib

/-!
# Consistent tables

Between two arrivals the four tables of a run tell the same story as the doclets: who is complete,
who waits, and for what. Names may repeat, so that a table may hold one doclet of a name while
another one of the same name is in a different state.

## Main definitions

* `Run.Consistent` — the tables and the doclets that have arrived tell the same story

## Main results

* `Run.Reaches.consistent` — the tables are consistent between any two arrivals
-/

namespace DocLineage

/-- The tables and the doclets that have arrived tell the same story. -/
structure Run.Consistent (r : Run) (arrived : List DocletId) : Prop where
  /-- No name is both complete and waited for. -/
  disjoint : ∀ n, n ∈ r.registry.completed.keys → n ∉ r.registry.waitingFor.keys
  /-- What is complete under a name is a doclet of that name that waits for nothing. -/
  completed : ∀ n id, r.registry.completed.get? n = some id →
    id ∈ arrived ∧ (r.doclet id).longname = n ∧ n ≠ [] ∧ (r.doclet id).pending = []
  /-- A doclet waits for a name exactly when it is listed there. -/
  listed : ∀ id ∈ arrived, ∀ k,
    id ∈ r.registry.waiters k ↔ ∃ e ∈ (r.doclet id).pending, e.identity = k
  /-- Only doclets that have arrived are listed, and each of them once. -/
  waiters : ∀ k, (r.registry.waiters k).Nodup ∧ ∀ id ∈ r.registry.waiters k, id ∈ arrived
  /-- Every named doclet makes its name known. -/
  found : ∀ id ∈ arrived, (r.doclet id).longname ≠ [] →
    (r.registry.find? (r.doclet id).longname).isSome = true
  /-- A name is known only through a doclet that goes by it. -/
  named : ∀ n id, r.registry.find? n = some id →
    id ∈ arrived ∧ (r.doclet id).longname = n ∧ n ≠ []
  /-- Who waits under a name goes by it and has not got everything. -/
  waiting : ∀ n id, r.registry.waiting.get? n = some id →
    id ∈ arrived ∧ (r.doclet id).longname = n ∧ (r.doclet id).pending ≠ []
  /-- No override is left to be expanded. -/
  overrides : r.registry.overrides = []

/-- Tables that are linked to the doclets while there is no agenda are consistent. -/
theorem Linked.toConsistent {as : List Arrival} {r : Run} (h : Linked as r [] none) :
    r.Consistent (as.map Arrival.id) where
  disjoint n hn hwaited := by
    have hfree := h.free n (Table.contains_iff.mpr hn)
    rw [Table.contains_iff.mpr hwaited] at hfree
    cases hfree
  completed n id hget := by
    obtain ⟨hn, harrived, hname, hnil⟩ := h.completed n id hget
    exact ⟨harrived, hname, hn, hnil⟩
  listed id hid k := by
    constructor
    · exact fun hlisted => ((h.listed k).2 id hlisted).2
    · rintro ⟨e, he, rfl⟩
      obtain ⟨a, ha, rfl⟩ := List.mem_map.mp hid
      -- there is no agenda on which the doclet could stand instead
      rcases h.awaited a ha (by simp) e he with hlisted | hagenda
      · exact hlisted
      · cases hagenda
  waiters k := ⟨(h.listed k).1, fun id hid => ((h.listed k).2 id hid).1⟩
  found id hid hname := by
    obtain ⟨a, ha, rfl⟩ := List.mem_map.mp hid
    exact h.found a ha (by simp) hname
  named n id hfind := by
    rw [Registry.find?] at hfind
    cases hget : r.registry.completed.get? n with
    | some x =>
      rw [hget] at hfind
      cases hfind
      obtain ⟨hn, harrived, hname, -⟩ := h.completed n id hget
      exact ⟨harrived, hname, hn⟩
    | none =>
      rw [hget] at hfind
      obtain ⟨hn, harrived, hname, -⟩ := h.waiting n id hfind
      exact ⟨harrived, hname, hn⟩
  waiting n id hget := by
    obtain ⟨-, harrived, hname, hpending⟩ := h.waiting n id hget
    exact ⟨harrived, hname, hpending (by simp)⟩
  overrides := h.overrides

/-- Between any two arrivals the tables are consistent. -/
theorem Run.Reaches.consistent {settings : Settings} {r₀ r : Run} {ids : List DocletId}
    (h : Run.Reaches settings r₀ ids r) : r.Consistent ids := by
  obtain ⟨as, ps, rfl, hexecution⟩ := h.exists_execution
  exact hexecution.linked.toConsistent

/-- Two doclets of one name that wait, the first of them for itself. -/
def Run.namesakes : Run :=
  .start [.tagged "D" [⟨"inheritdoc", "B"⟩, ⟨"inheritdoc", "D"⟩],
    .tagged "D" [⟨"inheritparams", "B"⟩]]

/-- Two doclets of one name are both listed where they wait, and found by the later one. -/
theorem Run.Reaches.consistent_namesakes :
    ∃ r, Reaches .standard namesakes [0, 1] r ∧ r.Consistent [0, 1] ∧
      r.registry.waiters "B" = [0, 1] ∧ r.registry.waiters "D" = [0] ∧
      r.registry.find? "D" = some 1 := by
  have hreaches : Reaches .standard namesakes [0, 1]
      ((namesakes.begin.feed .standard 0).1.feed .standard 1).1 := by
    refine .feed (.feed .begin ?_ ?_ ?_ ?_) ?_ ?_ ?_ ?_
    case refine_3 | refine_7 => exact Doclet.isFresh_tagged ..
    case refine_4 | refine_8 => exact snd_feed Settings.canJoin_standard
    all_goals decide
  refine ⟨_, hreaches, hreaches.consistent, ?_⟩
  cbv

end DocLineage
