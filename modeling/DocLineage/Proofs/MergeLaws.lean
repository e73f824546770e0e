import DocLineage.Proofs.Remerging

/-!
# One merge and the next

What two merges into a doclet come to. A doclet that merges an ancestor a second time, through the
same declaration, stays as it is: all of its slots are filled, and what the ancestor says it says
already. And of two merges through declarations of different ranks either may come first, as far as
prose is concerned; the parameters may well depend on the order, since what is documented stays.

## Main results

* `Doclet.inherit_inherit` — a second merge of the same entry changes nothing
* `Doclet.prose_inherit_comm` — merges of different ranks may be exchanged
* `Run.merge_again_and_exchange` — both of them for the merges of a run
-/

namespace DocLineage

/-! ### Parameters -/

namespace Param

open Doclet (findParam?)

variable {params own ancestor : List Param} {p : Param} {placeholder : Value} {name : Text}
  {signature : List Text}

/-- An entry that is replaced by itself stays. -/
theorem replace_eq_self (h : findParam? params name = some p) : replace name p params = params := by
  unfold findParam? at h
  induction params with
  | nil => rfl
  | cons q qs ih =>
    rw [replace]
    split
    · next hq =>
      rw [List.find?_cons, hq] at h
      rw [Option.some.inj h]
    · next hq =>
      have hne : (q.name == name) = false := by simpa using hq
      rw [List.find?_cons, hne] at h
      rw [ih h]

/-- A slot that has taken what the ancestor offers stays as it is. -/
theorem slot_eq_self (h : take (standIn placeholder name) (findParam? own name)
    (findParam? ancestor name) = findParam? own name) :
    slot ancestor placeholder own name = own := by
  unfold slot
  cases hown : findParam? own name with
  | none =>
    obtain ⟨p, hp⟩ := @exists_take (standIn placeholder name) (findParam? own name)
      (findParam? ancestor name)
    rw [h, hown] at hp
    cases hp
  | some p =>
    cases hancestor : findParam? ancestor name with
    | none => rfl
    | some inherited =>
      dsimp only
      split
      · next hsynthesized =>
        rw [hown, hancestor, take, if_pos hsynthesized] at h
        rw [Option.some.inj h]
        exact replace_eq_self hown
      · rfl

theorem foldl_slot_eq_self (h : ∀ name ∈ signature, slot ancestor placeholder own name = own) :
    signature.foldl (slot ancestor placeholder) own = own := by
  induction signature with
  | nil => rfl
  | cons n ns ih =>
    rw [List.foldl_cons, h n List.mem_cons_self]
    exact ih fun name hname => h name (List.mem_cons_of_mem n hname)

/-- A signature that is filled stays as it is. -/
theorem fill_fill : fill ancestor placeholder signature (fill ancestor placeholder signature own) =
    fill ancestor placeholder signature own := by
  by_cases hnil : ancestor = []
  · simp [fill, hnil]
  · conv_lhs => rw [fill, if_neg (by simpa using hnil)]
    apply foldl_slot_eq_self
    intro name hname
    apply slot_eq_self
    rw [findParam?_fill, if_pos ⟨hname, hnil⟩, take_take]

end Param

/-! ### Return values and prose -/

theorem Doclet.inheritReturns_inheritReturns (own ancestor : Option (List Return)) :
    inheritReturns (inheritReturns own ancestor) ancestor = inheritReturns own ancestor := by
  by_cases hnil : own.getD [] = []
  · rw [inheritReturns_of_eq_nil hnil]
    by_cases hancestor : ancestor.getD [] = []
    · rw [inheritReturns_of_eq_nil hancestor]
    · rw [inheritReturns_of_ne_nil hancestor]
  · rw [inheritReturns_of_ne_nil hnil, inheritReturns_of_ne_nil hnil]

/-- Prose that was taken is not blank, and it is not outranked by itself. -/
theorem Prose.inherit_inherit (own ancestor : Prose) (rank : Int) :
    (own.inherit ancestor rank).inherit ancestor rank = own.inherit ancestor rank := by
  cases hancestor : ancestor.isBlank with
  | true => rw [inherit_of_isBlank hancestor, inherit_of_isBlank hancestor]
  | false =>
    cases htaken : own.isBlank || own.isOutranked rank with
    | true =>
      have htake : own.inherit ancestor rank = ⟨ancestor.text, some rank⟩ := by
        rw [inherit, hancestor, htaken]
        rfl
      have hblank : isBlank ⟨ancestor.text, some rank⟩ = false := hancestor
      rw [htake]
      simp [inherit, hancestor, hblank, isOutranked]
    | false => simp [inherit, hancestor, htaken]

/-! ### Two merges into a doclet -/

namespace Doclet

variable {d ancestor ancestor' : Doclet} {mode mode' : InheritMode} {placeholder : Value}
  {placeholder' : Value} {rank rank' : Int} {field : ProseField}

theorem prose_inherit : (d.inherit ancestor mode placeholder rank).prose field =
    match mode with
    | .paramsOnly => d.prose field
    | .full => (d.prose field).inherit (ancestor.prose field) rank := by
  cases mode <;> cases field <;> rfl

theorem otherSources_inherit :
    (d.inherit ancestor mode placeholder rank).otherSources = d.otherSources := by
  cases mode <;> rfl

/-- A doclet that merges the same ancestor again, through the same declaration, stays as it is. -/
theorem inherit_inherit (d ancestor : Doclet) (mode : InheritMode) (placeholder : Value)
    (rank : Int) :
    (d.inherit ancestor mode placeholder rank).inherit ancestor mode placeholder rank =
      d.inherit ancestor mode placeholder rank := by
  cases mode with
  | paramsOnly => simp only [inherit, Param.fill_fill, inheritReturns_inheritReturns]
  | full =>
    simp only [inherit, Param.fill_fill, inheritReturns_inheritReturns, Prose.inherit_inherit]

/-- Merges through declarations of different ranks may be exchanged, as far as prose and its ranks
are concerned. -/
theorem prose_inherit_comm (h : rank ≠ rank') :
    ((d.inherit ancestor mode placeholder rank).inherit ancestor' mode' placeholder'
        rank').prose field =
      ((d.inherit ancestor' mode' placeholder' rank').inherit ancestor mode placeholder
        rank).prose field := by
  -- the two ancestors as the doclets at two places
  let read (x : DocletId) : Prose := if x = 0 then ancestor.prose field else ancestor'.prose field
  let m : Merge := ⟨0, ⟨[], mode, rank⟩⟩
  let m' : Merge := ⟨1, ⟨[], mode', rank'⟩⟩
  have hcomm : Prose.receive read (Prose.receive read (d.prose field) m) m' =
      Prose.receive read (Prose.receive read (d.prose field) m') m := Prose.receive_comm h
  rw [prose_inherit, prose_inherit, prose_inherit, prose_inherit]
  exact hcomm

end Doclet

/-! ### Two merges of a run -/

namespace Run

variable {r : Run} {placeholder : Value} {id ancestor : DocletId} {e : PendingAncestor}

theorem doclets_merge : (r.merge placeholder id ancestor e).doclets =
    r.doclets.modify id fun d => d.inherit (r.doclet ancestor) e.mode placeholder e.rank := rfl

theorem doclet_merge_self (h : id < r.doclets.size) :
    (r.merge placeholder id ancestor e).doclet id =
    (r.doclet id).inherit (r.doclet ancestor) e.mode placeholder e.rank := by
  rw [merge, doclet_update_self (by rw [size_note]; exact h), doclet_note]

theorem doclet_merge_of_ne {x : DocletId} (h : x ≠ id) :
    (r.merge placeholder id ancestor e).doclet x = r.doclet x := by
  rw [merge, doclet_update_of_ne h, doclet_note]

/-- A doclet may merge another one again, through the same declaration: no doclet changes. And it
may merge two others through declarations of different ranks in either order: its prose and the
ranks on record are the same. -/
theorem merge_again_and_exchange :
    (∀ (r : Run) (placeholder : Value) (id ancestor : DocletId) (e : PendingAncestor),
      ancestor ≠ id →
      ((r.merge placeholder id ancestor e).merge placeholder id ancestor e).doclets =
        (r.merge placeholder id ancestor e).doclets) ∧
    ∀ (r : Run) (p p' : Value) (id a b : DocletId) (e e' : PendingAncestor),
      id < r.doclets.size → a ≠ id → b ≠ id → e.rank ≠ e'.rank →
      (∀ field, (((r.merge p id a e).merge p' id b e').doclet id).prose field =
        (((r.merge p' id b e').merge p id a e).doclet id).prose field) ∧
      (((r.merge p id a e).merge p' id b e').doclet id).otherSources =
        (((r.merge p' id b e').merge p id a e).doclet id).otherSources := by
  constructor
  · intro r placeholder id ancestor e hne
    -- the ancestor is read the second time as it was the first time
    rw [doclets_merge, doclet_merge_of_ne hne, doclets_merge]
    apply Array.ext_getElem?
    intro i
    simp only [Array.getElem?_modify]
    split
    · rw [Option.map_map]
      congr 1
      funext d
      exact Doclet.inherit_inherit ..
    · rfl
  · intro r p p' id a b e e' hid ha hb hranks
    have hsize : ∀ (placeholder : Value) (x : DocletId) (e : PendingAncestor),
        id < (r.merge placeholder id x e).doclets.size := fun placeholder x e => by
      rw [merge, size_update, size_note]
      exact hid
    rw [doclet_merge_self (hsize _ _ _), doclet_merge_self hid, doclet_merge_of_ne hb,
      doclet_merge_self (hsize _ _ _), doclet_merge_self hid, doclet_merge_of_ne ha]
    refine ⟨fun field => Doclet.prose_inherit_comm hranks, ?_⟩
    simp only [Doclet.otherSources_inherit]

/-- Two doclets with descriptions are merged into a third one; the one that was declared first is
heard in the end, whether it is merged twice, first or last. -/
theorem merge_again_and_exchange_backwards :
    let r := Run.start Resolution.backwards
    let p := Value.text "undocumented"
    let e : PendingAncestor := ⟨"A", .full, 1⟩
    let e' : PendingAncestor := ⟨"B", .full, 2⟩
    ((r.merge p 0 2 e).merge p 0 2 e).doclets = (r.merge p 0 2 e).doclets ∧
      0 < r.doclets.size ∧ e.rank ≠ e'.rank ∧
      (((r.merge p 0 2 e).merge p 0 1 e').doclet 0).prose .description = ⟨some "of A", some 1⟩ ∧
      (((r.merge p 0 1 e').merge p 0 2 e).doclet 0).prose .description = ⟨some "of A", some 1⟩ := by
  intro r p e e'
  obtain ⟨hagain, hexchange⟩ := merge_again_and_exchange
  obtain ⟨hprose, -⟩ := hexchange r p p 0 2 1 e e' (by decide) (by decide) (by decide) (by decide)
  have hfirst : (((r.merge p 0 2 e).merge p 0 1 e').doclet 0).prose .description =
      ⟨some "of A", some 1⟩ := by decide
  exact ⟨hagain r p 0 2 e (by decide), by decide, by decide, hfirst,
    (hprose .description).symm.trans hfirst⟩

end Run

end DocLineage
