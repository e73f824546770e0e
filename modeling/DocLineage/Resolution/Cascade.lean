import DocLineage.Resolution.Run

/-!
# The completion cascade

A complete doclet wakes the doclets that waited for it; each of them may become complete in turn and
wake others before the next one is taken up. The doclets still to be woken form an agenda, and the
cascade works it off from the front.

The cascade ends because every step lowers a measure. A doclet that becomes complete under a new
name leaves fewer doclets whose name is not complete. Otherwise the agenda gets shorter, except for
waiters that were parked under a name that was complete already; and those are never replaced.

## Main definitions

* `Run.openNames` — how many doclets go by a name that is not complete
* `Run.cascade` — the run after an agenda is worked off
* `Run.process`, `Run.complete` — a doclet taken up, or completed, with all that follows

## Main results

* `Run.advance_lowers` — taking up a doclet lowers the measure, what it wakes included
* `Run.takeUp_lowers` — so does taking up the front of an agenda
-/

namespace DocLineage

namespace Registry

theorem staleWaiters_settle (r : Registry) (id : DocletId) (longname : Text) :
    (r.settle id longname).staleWaiters =
      Table.total (staleLength r.completed) (r.waitingFor.erase longname).entries := by
  unfold staleWaiters settle
  simp only [Table.erase]
  apply Table.total_congr
  intro e he
  have hne : ¬ longname = e.1 := by
    intro heq
    simp [heq] at he
  simp [staleLength, Table.contains_insert, hne]

/-- When a name that is complete already is completed again, the waiters that it sets free are no
longer stale. -/
theorem staleWaiters_settle_of_mem {r : Registry} {longname : Text}
    (h : r.completed.contains longname = true) (id : DocletId) :
    (r.settle id longname).staleWaiters + (r.waiters longname).length = r.staleWaiters := by
  rw [staleWaiters_settle, staleWaiters,
    ← Table.total_filter_ne_add (staleLength r.completed) r.waitingFor.nodup longname]
  congr 1
  unfold waiters Table.get?
  cases Table.lookup longname r.waitingFor.entries <;> simp [staleLength, h]

end Registry

namespace Run

/-- How many doclets go by a name that is not complete. -/
def openNames (r : Run) : Nat := r.longnames.countP fun n => !r.registry.completed.contains n

/-- How many doclets were parked under names that are complete already; beside an agenda, these are
the ones that can be taken up without a new name becoming complete. -/
def owed (r : Run) : Nat := r.registry.staleWaiters

@[simp] theorem openNames_note (r : Run) (n : Notice) : (r.note n).openNames = r.openNames := rfl

@[simp] theorem owed_note (r : Run) (n : Notice) : (r.note n).owed = r.owed := rfl

@[simp] theorem openNames_pass (placeholder : Value) (r : Run) (id : DocletId) :
    (r.pass placeholder id).openNames = r.openNames := by
  simp [openNames]

@[simp] theorem owed_pass (placeholder : Value) (r : Run) (id : DocletId) :
    (r.pass placeholder id).owed = r.owed := by
  simp [owed]

/-- A doclet with a longname is among the doclets of the run. -/
theorem longname_mem (r : Run) {id : DocletId} (h : (r.doclet id).longname ≠ []) :
    (r.doclet id).longname ∈ r.longnames := by
  unfold doclet at h ⊢
  cases hd : r.doclets[id]? with
  | none => simp [hd] at h
  | some d =>
    simp only [Option.getD_some]
    exact List.mem_map_of_mem (Array.mem_toList_iff.mpr (Array.mem_of_getElem? hd))

theorem countP_lt_of_imp {α : Type} {p q : α → Bool} {l : List α} (h : ∀ a, p a = true → q a = true)
    {a : α} (ha : a ∈ l) (hq : q a = true) (hp : p a = false) : l.countP p < l.countP q := by
  induction l with
  | nil => simp at ha
  | cons b l ih =>
    have hle : l.countP p ≤ l.countP q := List.countP_mono_left fun x _ hx => h x hx
    rcases List.mem_cons.mp ha with rfl | ha
    · simp only [List.countP_cons, hq, hp, if_true, Bool.false_eq_true, if_false]
      omega
    · have ih := ih ha
      have hhead : (if p b = true then 1 else 0) ≤ if q b = true then 1 else 0 := by
        cases hpb : p b with
        | false => simp
        | true => simp [h b hpb]
      rw [List.countP_cons, List.countP_cons]
      omega

theorem contains_completed_settle (r : Run) (id : DocletId) (h : (r.doclet id).longname ≠ [])
    (n : Text) : (r.settle id).1.registry.completed.contains n =
      (decide ((r.doclet id).longname = n) || r.registry.completed.contains n) := by
  simp [settle, h, Registry.settle, Table.contains_insert]

/-- A doclet that becomes complete under a new name leaves fewer doclets whose name is open. -/
theorem openNames_settle_lt (r : Run) (id : DocletId) (hname : (r.doclet id).longname ≠ [])
    (hopen : r.registry.completed.contains (r.doclet id).longname = false) :
    (r.settle id).1.openNames < r.openNames := by
  have hsame : (r.settle id).1.longnames = r.longnames := by
    simp only [settle, hname, if_false]
    rfl
  unfold openNames
  rw [hsame]
  apply countP_lt_of_imp (a := (r.doclet id).longname) _ (r.longname_mem hname)
  · simp [hopen]
  · simp [contains_completed_settle r id hname]
  · intro n
    simp [contains_completed_settle r id hname]

/-- Completing a doclet lowers the measure, what it wakes included. -/
theorem settle_lowers (r : Run) (id : DocletId) :
    (r.settle id).1.openNames < r.openNames ∨
      (r.settle id).1.openNames = r.openNames ∧
        (r.settle id).1.owed + (r.settle id).2.length ≤ r.owed := by
  by_cases hname : (r.doclet id).longname = []
  · -- an anonymous doclet wakes no one
    simp only [settle, hname, if_true]
    exact Or.inr ⟨rfl, Nat.le_refl _⟩
  · cases hc : r.registry.completed.contains (r.doclet id).longname with
    | true =>
      -- no name is new, and whoever is woken was owed before and is not any more
      right
      have key := contains_completed_settle r id hname
      simp only [settle, hname, if_false] at key ⊢
      constructor
      · unfold openNames
        apply List.countP_congr
        intro n _
        rw [key]
        by_cases hn : (r.doclet id).longname = n
        · simp [← hn, hc]
        · simp [hn]
      · simp only [owed_note, List.length_map]
        exact Nat.le_of_eq (Registry.staleWaiters_settle_of_mem hc id)
    | false =>
      -- the name of the doclet was open and is not any more, whoever is woken
      exact Or.inl (r.openNames_settle_lt id hname hc)

/-- Taking up a doclet lowers the measure, what it wakes included. -/
theorem advance_lowers (placeholder : Value) (r : Run) (id : DocletId) :
    (r.advance placeholder id).1.openNames < r.openNames ∨
      (r.advance placeholder id).1.openNames = r.openNames ∧
        (r.advance placeholder id).1.owed + (r.advance placeholder id).2.length ≤ r.owed := by
  unfold advance
  simp only
  split
  · simpa using (r.pass placeholder id).settle_lowers id
  · right; simp

/-- The run after the front of an agenda is taken up, and what it wakes. -/
def takeUp (placeholder : Value) (r : Run) (w : Wake) : Run × List Wake :=
  (r.note (.woken (r.doclet w.waiter).label w.ancestor)).advance placeholder w.waiter

/-- Taking up the front of an agenda lowers the measure of the run and its agenda. -/
theorem takeUp_lowers (placeholder : Value) (r : Run) (w : Wake) (ws : List Wake) :
    Prod.Lex (· < ·) (· < ·)
      ((r.takeUp placeholder w).1.openNames,
        (r.takeUp placeholder w).1.owed + ((r.takeUp placeholder w).2 ++ ws).length)
      (r.openNames, r.owed + (w :: ws).length) := by
  rcases advance_lowers placeholder (r.note (.woken (r.doclet w.waiter).label w.ancestor)) w.waiter
    with h | ⟨h, h'⟩
  · exact Prod.Lex.left _ _ h
  · unfold takeUp
    simp only [h, openNames_note, owed_note, List.length_append, List.length_cons] at h' ⊢
    exact Prod.Lex.right _ (by omega)

/-- The run after an agenda is worked off. What a doclet wakes comes before the rest. -/
def cascade (placeholder : Value) (r : Run) : List Wake → Run
  | [] => r
  | w :: ws =>
    cascade placeholder (r.takeUp placeholder w).1 ((r.takeUp placeholder w).2 ++ ws)
termination_by ws => (r.openNames, r.owed + ws.length)
decreasing_by exact takeUp_lowers placeholder r w ws

/-- The run after a doclet is taken up, with all that its completion sets off. -/
def process (placeholder : Value) (r : Run) (id : DocletId) : Run :=
  let (r, woken) := r.advance placeholder id
  r.cascade placeholder woken

/-- The run after a doclet is completed, with all that its completion sets off. -/
def complete (placeholder : Value) (r : Run) (id : DocletId) : Run :=
  let (r, woken) := r.settle id
  r.cascade placeholder woken

end Run

end DocLineage
