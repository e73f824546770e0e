import DocLineage.Doclet.Inherit

/-!
# Filling a signature

A parameter list is read by name, and an entry that stands in for a parameter that no one documents
counts as no documentation. Filling the slot of a name changes what is found under that name only,
and there it keeps what the doclet documents itself and otherwise takes what the ancestor documents.

## Main definitions

* `Param.documented?` — the entry of a name, unless it is only a placeholder

## Main results

* `Param.findParam?_slot_of_ne` — a slot leaves the other names alone
* `Param.documented?_slot` — a slot keeps what is documented, and else takes what is offered
* `Param.documented?_fill` — so does a whole signature, for every name in it
-/

namespace DocLineage.Param

open Doclet (findParam?)

/-- The entry of a name, unless it only stands in for a parameter that no one documents. -/
def documented? (params : List Param) (name : Text) : Option Param :=
  (findParam? params name).filter fun p => !p.synthesized

variable {own ancestor params : List Param} {name name' : Text} {entry p : Param}
  {placeholder : Value} {signature : List Text}

/-! ### Finding by name -/

theorem name_of_findParam? (h : findParam? params name = some p) : p.name = name := by
  have hp := List.find?_some h
  exact beq_iff_eq.mp hp

theorem findParam?_append_singleton : findParam? (params ++ [p]) name =
    (findParam? params name).or (if p.name = name then some p else none) := by
  unfold findParam?
  rw [List.find?_append, List.find?_singleton]
  by_cases h : p.name = name <;> simp [h]

/-- Replacing an entry by one of the same name leaves the other names alone. -/
theorem findParam?_replace_of_ne (hentry : entry.name = name) (hne : name' ≠ name) :
    findParam? (replace name entry params) name' = findParam? params name' := by
  unfold findParam?
  induction params with
  | nil => rfl
  | cons p ps ih =>
    rw [replace]
    split
    · next hp =>
      -- neither the old entry nor the new one is the one that is looked for
      have hp : p.name = name := beq_iff_eq.mp hp
      have hnot : (name == name') = false := beq_eq_false_iff_ne.mpr (Ne.symm hne)
      rw [List.find?_cons, List.find?_cons, hentry, hp, hnot]
    · rw [List.find?_cons, List.find?_cons, ih]

theorem findParam?_replace_self (hentry : entry.name = name)
    (h : findParam? params name = some p) :
    findParam? (replace name entry params) name = some entry := by
  unfold findParam? at *
  induction params with
  | nil => cases h
  | cons q qs ih =>
    rw [replace]
    split
    · rw [List.find?_cons, hentry, beq_self_eq_true]
    · next hq =>
      have hq : (q.name == name) = false := by simpa using hq
      rw [List.find?_cons, hq] at h ⊢
      exact ih h

/-! ### Filling -/

/-- A slot leaves the other names alone. -/
theorem findParam?_slot_of_ne (hne : name' ≠ name) :
    findParam? (slot ancestor placeholder own name) name' = findParam? own name' := by
  unfold slot
  cases hown : findParam? own name with
  | some p =>
    cases hancestor : findParam? ancestor name with
    | none => rfl
    | some inherited =>
      dsimp only
      split
      · exact findParam?_replace_of_ne (name_of_findParam? hancestor) hne
      · rfl
  | none =>
    cases hancestor : findParam? ancestor name with
    | some inherited =>
      have hname := name_of_findParam? hancestor
      simp only [findParam?_append_singleton, hname, if_neg (Ne.symm hne), Option.or_none]
    | none =>
      simp only [findParam?_append_singleton, standIn, if_neg (Ne.symm hne), Option.or_none]

/-- A slot keeps what is documented under its name, and takes what the ancestor documents there
otherwise. -/
theorem documented?_slot : documented? (slot ancestor placeholder own name) name =
    (documented? own name).or (documented? ancestor name) := by
  unfold slot documented?
  cases hown : findParam? own name with
  | some p =>
    cases hancestor : findParam? ancestor name with
    | none => simp [hown]
    | some inherited =>
      dsimp only
      cases hsynthesized : p.synthesized with
      | true =>
        -- a placeholder gives way to whatever the ancestor has
        rw [if_pos rfl, findParam?_replace_self (name_of_findParam? hancestor) hown]
        simp [Option.filter_some, hsynthesized]
      | false => simp [hown, Option.filter_some, hsynthesized]
  | none =>
    cases hancestor : findParam? ancestor name with
    | some inherited =>
      have hname := name_of_findParam? hancestor
      simp [findParam?_append_singleton, hown, hname]
    | none => simp [findParam?_append_singleton, hown, standIn, Option.filter_some]

theorem documented?_slot_of_ne (hne : name' ≠ name) :
    documented? (slot ancestor placeholder own name) name' = documented? own name' := by
  rw [documented?, findParam?_slot_of_ne hne, documented?]

/-- Filling a signature keeps what is documented, and takes what the ancestor documents under the
names of the signature. -/
theorem documented?_foldl_slot :
    documented? (signature.foldl (slot ancestor placeholder) own) name =
      (documented? own name).or (if name ∈ signature then documented? ancestor name else none) := by
  induction signature generalizing own with
  | nil => simp
  | cons n ns ih =>
    rw [List.foldl_cons, ih]
    by_cases hn : name = n
    · subst hn
      rw [documented?_slot, if_pos List.mem_cons_self]
      -- a name that is repeated in the signature takes nothing the second time
      cases documented? own name <;> cases documented? ancestor name <;> simp
    · rw [documented?_slot_of_ne hn]
      simp [hn]

/-- An ancestor without parameters documents none. -/
theorem documented?_fill (h : name ∈ signature) :
    documented? (fill ancestor placeholder signature own) name =
      (documented? own name).or (documented? ancestor name) := by
  unfold fill
  split
  · next hnil =>
    rw [List.isEmpty_iff.mp hnil]
    exact Option.or_none.symm
  · rw [documented?_foldl_slot, if_pos h]

end DocLineage.Param
