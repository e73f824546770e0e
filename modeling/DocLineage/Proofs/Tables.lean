import DocLineage.Resolution.Registry
import Mathlib.Data.List.Nodup

/-!
# Looking things up in a changed registry

What the tables of a registry say after a doclet was parked, under one ancestor or under several,
and after a doclet was completed.

## Main definitions

* `Registry.parkAll` — a doclet parked under several ancestors

## Main results

* `Registry.waiters_parkAll`, `Registry.get?_waiting_parkAll` — the tables after parking
* `Registry.waiters_settle`, `Registry.get?_waiting_settle` — the tables after a completion
-/

namespace DocLineage

namespace Registry

variable {r : Registry} {id x : DocletId} {ids : List DocletId} {longname ancestor k n : Text}

/-! ### Parking -/

theorem addOnce_eq : addOnce ids id = if id ∈ ids then ids else ids ++ [id] := by
  simp only [addOnce, List.contains_iff_mem]

theorem mem_addOnce : x ∈ addOnce ids id ↔ x ∈ ids ∨ x = id := by
  rw [addOnce_eq]
  split
  · next hid =>
    constructor
    · exact Or.inl
    · rintro (hx | rfl)
      · exact hx
      · exact hid
  · rw [List.mem_append, List.mem_singleton]

theorem nodup_addOnce (h : ids.Nodup) : (addOnce ids id).Nodup := by
  rw [addOnce_eq]
  split
  · exact h
  · next hid =>
    rw [← List.concat_eq_append]
    exact h.concat hid

@[simp] theorem addOnce_addOnce : addOnce (addOnce ids id) id = addOnce ids id := by
  rw [addOnce_eq, if_pos (mem_addOnce.mpr (Or.inr rfl))]

theorem get?_waitingFor_park : (r.park id longname ancestor).waitingFor.get? k =
    if ancestor = k then some (addOnce (r.waiters k) id) else r.waitingFor.get? k := by
  simp only [park, Table.get?_insert]
  split
  · next h => rw [h]
  · rfl

theorem waiters_park : (r.park id longname ancestor).waiters k =
    if ancestor = k then addOnce (r.waiters k) id else r.waiters k := by
  rw [waiters, get?_waitingFor_park]
  split <;> rfl

theorem get?_waiting_park : (r.park id longname ancestor).waiting.get? n =
    if longname ≠ [] ∧ longname = n then some id else r.waiting.get? n := by
  simp only [park]
  by_cases h : longname = []
  · simp [h]
  · simp [h, Table.get?_insert]

/-- The doclet waits for each of the ancestors, and under its longname if it has one. -/
def parkAll (r : Registry) (id : DocletId) (longname : Text) (ancestors : List Text) : Registry :=
  ancestors.foldl (fun r ancestor => r.park id longname ancestor) r

variable {ancestors : List Text}

@[simp] theorem parkAll_nil : r.parkAll id longname [] = r := rfl

@[simp] theorem parkAll_cons : r.parkAll id longname (ancestor :: ancestors) =
    (r.park id longname ancestor).parkAll id longname ancestors := rfl

@[simp] theorem completed_parkAll : (r.parkAll id longname ancestors).completed = r.completed := by
  induction ancestors generalizing r with
  | nil => rfl
  | cons a as ih => rw [parkAll_cons, ih]; rfl

@[simp] theorem overrides_parkAll : (r.parkAll id longname ancestors).overrides = r.overrides := by
  induction ancestors generalizing r with
  | nil => rfl
  | cons a as ih => rw [parkAll_cons, ih]; rfl

theorem get?_waitingFor_parkAll : (r.parkAll id longname ancestors).waitingFor.get? k =
    if k ∈ ancestors then some (addOnce (r.waiters k) id) else r.waitingFor.get? k := by
  induction ancestors generalizing r with
  | nil => simp
  | cons a as ih =>
    rw [parkAll_cons, ih, waiters_park, get?_waitingFor_park]
    by_cases hk : a = k
    · -- under a name that comes again the doclet is still listed once
      subst hk
      simp
    · simp [hk, Ne.symm hk]

theorem waiters_parkAll : (r.parkAll id longname ancestors).waiters k =
    if k ∈ ancestors then addOnce (r.waiters k) id else r.waiters k := by
  rw [waiters, get?_waitingFor_parkAll]
  split <;> rfl

theorem contains_waitingFor_parkAll : (r.parkAll id longname ancestors).waitingFor.contains k =
    (decide (k ∈ ancestors) || r.waitingFor.contains k) := by
  rw [Table.contains, get?_waitingFor_parkAll]
  split
  · next h => simp [h]
  · next h => simp [h, Table.contains]

theorem get?_waiting_parkAll : (r.parkAll id longname ancestors).waiting.get? n =
    if ancestors ≠ [] ∧ longname ≠ [] ∧ longname = n then some id else r.waiting.get? n := by
  induction ancestors generalizing r with
  | nil => simp
  | cons a as ih =>
    rw [parkAll_cons, ih, get?_waiting_park]
    -- each time the doclet is entered under its own longname, however often it is parked
    by_cases h : longname ≠ [] ∧ longname = n
    · obtain ⟨hne, rfl⟩ := h
      simp [hne]
    · have hall : ∀ p : Prop, ¬ (p ∧ longname ≠ [] ∧ longname = n) := fun _ hp => h hp.2
      rw [if_neg (hall _), if_neg h, if_neg (hall _)]

/-! ### Completing -/

theorem get?_completed_settle : (r.settle id n).completed.get? k =
    if n = k then some id else r.completed.get? k :=
  Table.get?_insert ..

theorem contains_completed_settle : (r.settle id n).completed.contains k =
    (decide (n = k) || r.completed.contains k) :=
  Table.contains_insert ..

theorem waiters_settle : (r.settle id n).waiters k = if n = k then [] else r.waiters k := by
  simp only [waiters, settle, Table.get?_erase]
  split <;> rfl

theorem contains_waitingFor_settle : (r.settle id n).waitingFor.contains k =
    (!decide (n = k) && r.waitingFor.contains k) := by
  rw [settle, Table.contains, Table.get?_erase]
  by_cases h : n = k <;> simp [h, Table.contains]

theorem get?_waiting_settle : (r.settle id n).waiting.get? k =
    if n = k ∧ r.waiting.get? n = some id then none else r.waiting.get? k := by
  simp only [settle]
  by_cases h : r.waiting.get? n = some id
  · simp [h, Table.get?_erase]
  · simp [h]

/-- A completion that has been made before changes no table. -/
theorem settle_of_settled (hcompleted : r.completed.get? n = some id)
    (hwaiting : r.waiting.get? n ≠ some id) (hfree : r.waitingFor.contains n = false) :
    r.settle id n = r := by
  rw [settle, Table.insert_of_get?_eq_some hcompleted, if_neg hwaiting,
    Table.erase_of_contains_eq_false hfree]

/-- Who could be found by a name before a completion can be found after it. -/
theorem isSome_find?_settle (h : (r.find? k).isSome = true) :
    ((r.settle id n).find? k).isSome = true := by
  unfold find? at h ⊢
  rw [get?_completed_settle, get?_waiting_settle]
  by_cases hk : n = k
  · simp [hk]
  · simpa [hk] using h

/-- What is complete under a name is found by it. -/
theorem isSome_find?_of_completed (h : r.completed.contains n = true) :
    (r.find? n).isSome = true := by
  obtain ⟨id, hid⟩ := Option.isSome_iff_exists.mp h
  rw [find?, hid]
  rfl

end Registry

end DocLineage
