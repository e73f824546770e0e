import DocLineage.Proofs.Stages

/-!
# A pass is a fold and a filter

A pass walks the list of pending ancestors by places, from the last one to the first. On the way the
list gets shorter and the tables change, and the same ancestor may come several times, complete or
not. Whatever the tables hold, the doclet has in the end inherited through all declarations of
complete ancestors, the last one first, and the others are left in their order; it is listed once
under each of these, and nothing else has changed.

## Main results

* `Run.pass_eq_walk_partway` — a run in the middle of a pass, and the walk that is still to come
* `Run.pass_foldr_filter` — the doclets and the tables after a pass, in any state of them
-/

namespace DocLineage.Run

variable {placeholder : Value} {r : Run} {id : DocletId}

/-- In the middle of a pass the list is shorter by what has been merged, and the walk goes on with
the entries that it has not come to. -/
theorem pass_eq_walk_partway (placeholder : Value) (r : Run) (id : DocletId) (n : Nat) :
    r.pass placeholder id =
      ((r.partway placeholder id n).setPending id
        ((r.doclet id).pending.take ((r.doclet id).pending.length - n) ++
          stillPending r.registry
            ((r.doclet id).pending.drop ((r.doclet id).pending.length - n)))).walk placeholder id
        ((r.doclet id).pending.length - n) := by
  generalize hk : (r.doclet id).pending.length - n = k
  have hsplit : (r.doclet id).pending =
      (r.doclet id).pending.take k ++ ((r.doclet id).pending.drop k ++ []) := by
    rw [List.append_nil, List.take_append_drop]
  have hlength : ((r.doclet id).pending.take k).length = k := by
    rw [List.length_take, ← hk]
    omega
  have hwalk := walk_append placeholder hsplit
  rwa [List.take_append_drop, List.append_nil, hlength, ← pass, ← hk, ← List.take_reverse,
    ← partway, hk] at hwalk

/-- Merging what is complete is a fold over all entries that passes over the others. -/
theorem replay_mergesOf_reverse (read : DocletId → Doclet) (reg : Registry)
    (es : List PendingAncestor) (d : Doclet) :
    d.replay placeholder read (reg.mergesOf es.reverse) =
      es.foldr (fun e d => match reg.completed.get? e.identity with
        | some x => d.inherit (read x) e.mode placeholder e.rank
        | none => d) d := by
  rw [Doclet.replay, Registry.mergesOf, List.foldl_filterMap, List.foldl_reverse]
  congr 1
  funext e d
  cases reg.completed.get? e.identity <;> rfl

/-- A pass over a doclet that is not complete itself, in any state of the tables. The doclet
inherits through the entries whose ancestor is complete, from the last to the first, and the others
stay pending in their order. It is put at the end of the list of each ancestor that it still waits
for, unless it is on it, and is entered as waiting if there is one and it has a name. No other
doclet and no other list changes. -/
theorem pass_foldr_filter (placeholder : Value)
    (h : ∀ k, r.registry.completed.get? k ≠ some id) :
    let d := r.doclet id
    let rest := d.pending.filter fun e => !r.registry.completed.contains e.identity
    let r' := r.pass placeholder id
    r'.doclet id =
        { d.pending.foldr (fun e d => match r.registry.completed.get? e.identity with
            | some x => d.inherit (r.doclet x) e.mode placeholder e.rank
            | none => d) d with pending := rest } ∧
      (∀ x, x ≠ id → r'.doclet x = r.doclet x) ∧ r'.doclets.size = r.doclets.size ∧
      (∀ k, r'.registry.waitingFor.get? k =
        if k ∈ rest.map PendingAncestor.identity then
          some (if id ∈ r.registry.waiters k then r.registry.waiters k
            else r.registry.waiters k ++ [id])
        else r.registry.waitingFor.get? k) ∧
      (∀ n, r'.registry.waiting.get? n =
        if rest ≠ [] ∧ d.longname ≠ [] ∧ d.longname = n then some id
        else r.registry.waiting.get? n) ∧
      r'.registry.completed = r.registry.completed ∧
      r'.registry.overrides = r.registry.overrides := by
  intro d rest r'
  have hregistry : r'.registry =
      r.registry.parkAll id d.longname (rest.map PendingAncestor.identity).reverse := registry_pass
  refine ⟨?_, fun x hx => doclet_pass_of_ne hx, size_pass, ?_, ?_, completed_pass .., ?_⟩
  · rw [← replay_mergesOf_reverse]
    exact doclet_pass_self h
  · intro k
    rw [hregistry, Registry.get?_waitingFor_parkAll, Registry.addOnce_eq]
    simp only [List.mem_reverse]
  · intro n
    rw [hregistry, Registry.get?_waiting_parkAll]
    simp only [ne_eq, List.reverse_eq_nil_iff, List.map_eq_nil_iff]
  · rw [hregistry, Registry.overrides_parkAll]

/-- A doclet that has inherited from none of its ancestors yet, two of which are complete. One of
these, and one of the others, is declared twice; and under the latter the doclet is listed. -/
def crowded : Run where
  doclets := #[
    { longname := "D", pending := [⟨"A", .paramsOnly, 0⟩, ⟨"X", .full, 1⟩, ⟨"B", .full, 2⟩,
        ⟨"Z", .full, 3⟩, ⟨"X", .paramsOnly, 4⟩, ⟨"A", .full, 5⟩] },
    { longname := "A", description := { text := some "of A" }, summary := { text := some "A" } },
    { longname := "B", description := { text := some "of B" } },
    { longname := "E", pending := [⟨"X", .full, 0⟩, ⟨"Y", .full, 1⟩] }]
  registry := {
    completed := .insert (.insert .empty "A" 1) "B" 2
    waitingFor := .insert (.insert .empty "X" [0, 3]) "Y" [3]
    waiting := .insert .empty "E" 3 }

/-- The last declaration is merged first. It gives the summary, and a description that gives way to
the one through the declaration of a complete ancestor before it. -/
theorem pass_foldr_filter_crowded :
    (∀ k, crowded.registry.completed.get? k ≠ some 0) ∧
      ∃ r', crowded.pass (.text "undocumented") 0 = r' ∧
        (r'.doclet 0).pending = [⟨"X", .full, 1⟩, ⟨"Z", .full, 3⟩, ⟨"X", .paramsOnly, 4⟩] ∧
        (r'.doclet 0).description = ⟨some "of B", some 2⟩ ∧
        (r'.doclet 0).summary = ⟨some "A", some 5⟩ ∧
        r'.registry.waitingFor.get? "X" = some [0, 3] ∧
        r'.registry.waitingFor.get? "Z" = some [0] ∧
        r'.registry.waitingFor.get? "Y" = some [3] ∧
        r'.registry.waiting.get? "D" = some 0 ∧ r'.registry.waiting.get? "E" = some 3 := by
  have h : ∀ k, crowded.registry.completed.get? k ≠ some 0 := by
    intro k
    simp only [crowded, Table.get?_insert, Table.get?_empty]
    grind
  obtain ⟨hdoclet, -, -, hwaitingFor, hwaiting, -, -⟩ :=
    pass_foldr_filter (.text "undocumented") h
  refine ⟨h, _, rfl, ?_, ?_, ?_, ?_, ?_, ?_, ?_, ?_⟩
  case refine_1 | refine_2 | refine_3 =>
    rw [hdoclet]
    decide
  case refine_4 | refine_5 | refine_6 =>
    rw [hwaitingFor]
    decide
  case refine_7 | refine_8 =>
    rw [hwaiting]
    decide

end DocLineage.Run
