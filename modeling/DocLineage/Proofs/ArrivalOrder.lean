import DocLineage.Proofs.Completion
import DocLineage.Proofs.Overriding

/-!
# What the order of arrival can change

The same doclets may arrive in one order or in another. What the tags of a doclet declare is the
same in every order. An override alone looks at what has come before: it declares members of what
its enclosing class extends if the class is there, and nothing if it is not. So as long as every
override finds the same to extend, each doclet records the same ancestors in both orders, the same
names become complete, and the same entries stay pending.

Where an override finds its class in the one order and misses it in the other, this is not so. The
override that misses it has nothing to wait for and is complete, and with it whoever waits for it.

## Main definitions

* `Resolution.Reorders` — the doclets of a list at other places in another one
* `Resolution.extended` — what an override may find its enclosing class to extend
* `Resolution.OverridesAgree` — every override finds the same in two orders

## Main results

* `Resolution.recorded_of_reorders` — what a doclet records in the other order
* `Resolution.mem_declarations_of_reorders` — all that is declared in the other order
* `Resolution.isLeast_completed` — the complete names are the least closed set, and what stays
  pending is the same in every order in which the overrides agree
* `Resolution.not_pending_iff_of_reorders` — it is not the same in every order
-/

namespace DocLineage

namespace Doclet

variable {settings : Settings} {d : Doclet}

/-- What is pending after an expansion does not tell where the enclosing class is. -/
theorem pending_expand (settings : Settings) (x : DocletId) (superclasses : List Text)
    (d : Doclet) :
    (d.expand settings x superclasses).1.pending =
      match settings.separators with
      | .error _ => d.pending
      | .ok separators =>
        match (separators.of d.scope).toText with
        | .error _ => d.pending
        | .ok separator => d.pending ++ PendingAncestor.ranked d.declared
            (superclasses.map fun superclass => (superclass ++ separator ++ d.name, .full)) := by
  cases hseparators : settings.separators with
  | error fault =>
    unfold expand
    rw [hseparators]
  | ok separators =>
    dsimp only
    cases hseparator : (separators.of d.scope).toText with
    | error fault => exact (expand_of_unjoined x superclasses hseparators hseparator).2.2
    | ok separator => exact (expand_of_joined x superclasses hseparators hseparator).2.2

/-- Without anything to extend an expansion declares nothing. -/
theorem pending_expand_nil (settings : Settings) (x : DocletId) (d : Doclet) :
    (d.expand settings x []).1.pending = d.pending := by
  rw [pending_expand]
  split
  · rfl
  · split
    · rfl
    · exact List.append_nil _

/-- What a doclet records depends on its enclosing class through what this extends, and that only if
it has an override. -/
theorem pending_record (settings : Settings) (found : Option (DocletId × List Text)) (d : Doclet) :
    (d.record settings found).1.pending =
      if (d.overriding settings d.tags).isSome = true then
        ((d.applyTags settings).expand settings 0 (found.elim [] Prod.snd)).1.pending
      else (d.applyTags settings).pending := by
  split
  · next h =>
    cases found with
    | none =>
      rw [record_of_none (Or.inr rfl)]
      exact (pending_expand_nil settings 0 _).symm
    | some found =>
      rw [record_of_overriding h, pending_expand, Option.elim_some, pending_expand]
  · next h =>
    rw [Bool.not_eq_true, Option.isSome_eq_false_iff, Option.isNone_iff_eq_none] at h
    rw [record_of_none (Or.inl h)]

end Doclet

namespace Resolution

/-- The doclets of one list stand at other places in another one. -/
def Reorders (place : Equiv.Perm DocletId) (doclets doclets' : List Doclet) : Prop :=
  ∀ id, doclets'[place id]? = doclets[id]?

/-- What the doclets extend that an override may find as its enclosing class. Without such a doclet
there is nothing to extend. -/
def extended (settings : Settings) (doclets : List Doclet) (id : DocletId) : List (List Text) :=
  if enclosers settings doclets id = [] then [[]]
  else (enclosers settings doclets id).map fun x => ((Run.start doclets).doclet x).superclasses

/-- In two orders of the same doclets every override finds the same to extend. -/
def OverridesAgree (settings : Settings) (place : Equiv.Perm DocletId)
    (doclets doclets' : List Doclet) : Prop :=
  ∀ id ∈ documented settings doclets,
    (((Run.start doclets).doclet id).overriding settings
      ((Run.start doclets).doclet id).tags).isSome = true →
    ∀ s ∈ extended settings doclets id, ∀ s' ∈ extended settings doclets' (place id), s = s'

instance (settings : Settings) (place : Equiv.Perm DocletId) (doclets doclets' : List Doclet) :
    Decidable (OverridesAgree settings place doclets doclets') :=
  inferInstanceAs (Decidable (∀ id ∈ documented settings doclets, _ → ∀ s ∈ _, ∀ s' ∈ _, s = s'))

variable {settings : Settings} {place : Equiv.Perm DocletId} {doclets doclets' : List Doclet}
  {run run' : Run} {id x : DocletId}

/-! ### The same doclets -/

theorem Reorders.symm (h : Reorders place doclets doclets') :
    Reorders place.symm doclets' doclets := fun id => by
  rw [← h (place.symm id), Equiv.apply_symm_apply]

theorem Reorders.mem (h : Reorders place doclets doclets') {d : Doclet} (hd : d ∈ doclets') :
    d ∈ doclets := by
  obtain ⟨id, hid⟩ := List.mem_iff_getElem?.mp hd
  exact List.mem_iff_getElem?.mpr ⟨place.symm id, (h.symm id).trans hid⟩

theorem Reorders.lt_length_iff (h : Reorders place doclets doclets') :
    place id < doclets'.length ↔ id < doclets.length := by
  rw [← not_iff_not, not_lt, not_lt, ← List.getElem?_eq_none_iff, h id, List.getElem?_eq_none_iff]

theorem Reorders.doclet_start (h : Reorders place doclets doclets') (hid : id < doclets.length) :
    (Run.start doclets').doclet (place id) = (Run.start doclets).doclet id := by
  rw [Resolution.doclet_start hid, Resolution.doclet_start (h.lt_length_iff.mpr hid)]
  have hsame := h id
  rw [List.getElem?_eq_getElem hid, List.getElem?_eq_getElem (h.lt_length_iff.mpr hid)] at hsame
  exact Option.some.inj hsame

/-- Two doclets that follow each other change places. -/
theorem reorders_swap (before after : List Doclet) (d d' : Doclet) :
    Reorders (Equiv.swap before.length (before.length + 1)) (before ++ d :: d' :: after)
      (before ++ d' :: d :: after) := by
  intro id
  rcases Nat.lt_or_ge id before.length with hlt | hge
  · rw [Equiv.swap_apply_of_ne_of_ne (Nat.ne_of_lt hlt) (Nat.ne_of_lt (Nat.lt_succ_of_lt hlt)),
      List.getElem?_append_left hlt, List.getElem?_append_left hlt]
  · obtain ⟨k, rfl⟩ := Nat.exists_eq_add_of_le hge
    match k with
    | 0 => simp
    | 1 => simp
    | k + 2 =>
      have hleft : before.length + (k + 2) ≠ before.length := by omega
      have hright : before.length + (k + 2) ≠ before.length + 1 := by omega
      rw [Equiv.swap_apply_of_ne_of_ne hleft hright,
        List.getElem?_append_right (Nat.le_add_right _ _),
        List.getElem?_append_right (Nat.le_add_right _ _), Nat.add_sub_cancel_left]
      rfl

/-- The same doclets take part. -/
theorem Reorders.mem_documented_iff (h : Reorders place doclets doclets') :
    place id ∈ documented settings doclets' ↔ id ∈ documented settings doclets := by
  rw [mem_documented, mem_documented, h.lt_length_iff]
  exact and_congr_right fun hid => by rw [h.doclet_start hid]

/-! ### What they record -/

/-- What a doclet finds its enclosing class to extend. -/
theorem foundClass?_mem_extended (hfresh : ∀ d ∈ doclets, d.IsFresh)
    (hid : id ∈ arriving settings doclets) :
    ((runBefore settings doclets id).foundClass? id).elim [] Prod.snd ∈
      extended settings doclets id := by
  have hfound := mem_enclosers_of_foundClass? hfresh hid
  unfold extended
  cases hclass : (runBefore settings doclets id).foundClass? id with
  | none =>
    rw [hclass] at hfound
    rw [if_pos hfound]
    exact List.mem_singleton.mpr rfl
  | some found =>
    rw [hclass] at hfound
    obtain ⟨hx, hclasses⟩ := hfound
    rw [if_neg (List.ne_nil_of_mem hx)]
    exact List.mem_map.mpr ⟨found.1, hx, hclasses.symm⟩

/-- What a doclet records, as it was when the run began. -/
theorem recorded_eq (hfresh : ∀ d ∈ doclets, d.IsFresh) (hid : id ∈ arriving settings doclets) :
    recorded settings doclets id =
      (((Run.start doclets).doclet id).record settings
        ((runBefore settings doclets id).foundClass? id)).1.pending := by
  rw [recorded, (record_of_arriving hfresh hid).2.1]

/-- In another order a doclet records the same ancestors, if the overrides find the same. -/
theorem recorded_of_reorders (hfresh : ∀ d ∈ doclets, d.IsFresh)
    (hplace : Reorders place doclets doclets')
    (hagree : OverridesAgree settings place doclets doclets')
    (hended : (runAll settings doclets).2 = none) (hended' : (runAll settings doclets').2 = none)
    (hid : id ∈ documented settings doclets) :
    recorded settings doclets' (place id) = recorded settings doclets id := by
  have hfresh' : ∀ d ∈ doclets', d.IsFresh := fun d hd => hfresh d (hplace.mem hd)
  have harriving : id ∈ arriving settings doclets := arriving_eq_documented hended ▸ hid
  have harriving' : place id ∈ arriving settings doclets' :=
    arriving_eq_documented hended' ▸ hplace.mem_documented_iff.mpr hid
  rw [recorded_eq hfresh harriving, recorded_eq hfresh' harriving',
    hplace.doclet_start (mem_documented.mp hid).1, Doclet.pending_record, Doclet.pending_record]
  split
  · next hwants =>
    rw [hagree id hid hwants _ (foundClass?_mem_extended hfresh harriving) _
      (foundClass?_mem_extended hfresh' harriving')]
  · rfl

/-- In an order in which every doclet records the same, all that is declared is the same. -/
theorem mem_declarations_of_reorders (hplace : Reorders place doclets doclets')
    (hrecorded : ∀ id ∈ documented settings doclets,
      recorded settings doclets' (place id) = recorded settings doclets id)
    (declaration : Text × List Text) :
    declaration ∈ declarations settings doclets ↔ declaration ∈ declarations settings doclets' := by
  have hsame : ∀ id ∈ documented settings doclets,
      (((Run.start doclets').doclet (place id)).longname,
        (recorded settings doclets' (place id)).map PendingAncestor.identity) =
      (((Run.start doclets).doclet id).longname,
        (recorded settings doclets id).map PendingAncestor.identity) := fun id hid => by
    rw [hplace.doclet_start (mem_documented.mp hid).1, hrecorded id hid]
  unfold declarations
  constructor
  · intro h
    obtain ⟨id, hid, rfl⟩ := List.mem_map.mp h
    exact List.mem_map.mpr ⟨place id, hplace.mem_documented_iff.mpr hid, hsame id hid⟩
  · intro h
    obtain ⟨id', hid', rfl⟩ := List.mem_map.mp h
    obtain ⟨id, rfl⟩ := place.surjective id'
    have hid := hplace.mem_documented_iff.mp hid'
    exact List.mem_map.mpr ⟨id, hid, (hsame id hid).symm⟩

/-! ### What becomes complete -/

/-- A run completes the least closed set of names, and leaves pending exactly the declarations of
names outside of it. So runs that record the same declarations complete the same names; in any order
in which every doclet records the same ancestors the same ones stay pending on it; and every doclet
records the same if every override finds the same to extend. -/
theorem isLeast_completed (hfresh : ∀ d ∈ doclets, d.IsFresh)
    (hrun : runAll settings doclets = (run, none)) :
    IsLeast {names | Closed (declarations settings doclets) names}
        {n | n ∈ run.registry.completed.keys} ∧
      (∀ id ∈ documented settings doclets,
        ((run.doclet id).pending = [] ↔
          ∀ e ∈ recorded settings doclets id, e.identity ∈ run.registry.completed.keys) ∧
        (run.doclet id).pending = (recorded settings doclets id).filter fun e =>
          e.identity ∉ run.registry.completed.keys) ∧
      (∀ (settings' : Settings) (doclets' : List Doclet) (run' : Run),
        (∀ d ∈ doclets', d.IsFresh) → runAll settings' doclets' = (run', none) →
        (∀ d, d ∈ declarations settings doclets ↔ d ∈ declarations settings' doclets') →
        ∀ n, n ∈ run.registry.completed.keys ↔ n ∈ run'.registry.completed.keys) ∧
      ∀ (place : Equiv.Perm DocletId) (doclets' : List Doclet) (run' : Run),
        Reorders place doclets doclets' → runAll settings doclets' = (run', none) →
        ((∀ id ∈ documented settings doclets,
            recorded settings doclets' (place id) = recorded settings doclets id) →
          ∀ id ∈ documented settings doclets,
            (run'.doclet (place id)).pending = (run.doclet id).pending) ∧
        (OverridesAgree settings place doclets doclets' →
          ∀ id ∈ documented settings doclets,
            recorded settings doclets' (place id) = recorded settings doclets id) := by
  refine ⟨isLeast_keys_completed hfresh hrun, fun id hid =>
    ⟨pending_eq_nil_iff_of_runAll hfresh hrun hid, pending_of_runAll hfresh hrun hid⟩,
    fun settings' doclets' run' hfresh' hrun' hsame n =>
      mem_completed_iff_of_declarations hfresh hrun hfresh' hrun' hsame n, ?_⟩
  intro place doclets' run' hplace hrun'
  have hfresh' : ∀ d ∈ doclets', d.IsFresh := fun d hd => hfresh d (hplace.mem hd)
  constructor
  · intro hrecorded id hid
    rw [pending_of_runAll hfresh hrun hid,
      pending_of_runAll hfresh' hrun' (hplace.mem_documented_iff.mpr hid), hrecorded id hid]
    apply List.filter_congr
    intro e _
    rw [decide_eq_decide, not_iff_not]
    exact (mem_completed_iff_of_declarations hfresh hrun hfresh' hrun'
      (mem_declarations_of_reorders hplace hrecorded) e.identity).symm
  · exact fun hagree id hid => recorded_of_reorders hfresh hplace hagree
      (congrArg Prod.snd hrun) (congrArg Prod.snd hrun') hid

/-- A member that overrides, in a class that extends another one. -/
def member : Doclet :=
  { longname := "C#m", name := "m", memberof := some "C", scope := some "instance",
    codeId := some "c", tags := [⟨"override", none⟩] }

/-- The class. -/
def subclass : Doclet := { longname := "C", superclasses := ["P"] }

theorem isFresh_member : member.IsFresh := ⟨rfl, rfl, rfl, rfl, rfl, rfl, rfl, rfl⟩

theorem isFresh_subclass : subclass.IsFresh := ⟨rfl, rfl, rfl, rfl, rfl, rfl, rfl, rfl⟩

/-- The class, its member, the member of the class that it extends, and a doclet that waits for
itself. -/
def kin : List Doclet :=
  [subclass, member, .tagged "P#m" [], .tagged "X" [⟨"inheritparams", "X"⟩]]

/-- The member comes after the one that it overrides. -/
def kinReordered : List Doclet :=
  [subclass, .tagged "P#m" [], member, .tagged "X" [⟨"inheritparams", "X"⟩]]

theorem reorders_kin : Reorders (Equiv.swap 1 2) kin kinReordered :=
  reorders_swap [subclass] [.tagged "X" [⟨"inheritparams", "X"⟩]] member (.tagged "P#m" [])

theorem overridesAgree_kin : OverridesAgree .standard (Equiv.swap 1 2) kin kinReordered := by
  decide

/-- The member waits for the one that it overrides, whether that comes before it or after it. -/
theorem isLeast_completed_kin :
    (∀ d ∈ kin, d.IsFresh) ∧ (runAll .standard kin).2 = none ∧
      IsLeast {names | Closed (declarations .standard kin) names}
        {n | n ∈ [Text.ofString "C", "P#m", "C#m"]} ∧
      (recorded .standard kin 3).filter (fun e =>
        e.identity ∉ [Text.ofString "C", "P#m", "C#m"]) = [⟨"X", .paramsOnly, 0⟩] ∧
      recorded .standard kinReordered 2 = [⟨"P#m", .full, 0⟩] ∧
      ((runAll .standard kinReordered).1.doclet 3).pending = [⟨"X", .paramsOnly, 0⟩] := by
  have hfresh : ∀ d ∈ kin, d.IsFresh := by
    simp [kin, isFresh_member, isFresh_subclass, Doclet.isFresh_tagged]
  have hnone : (runAll .standard kin).2 = none := snd_runAll Settings.canJoin_standard kin
  have hnone' : (runAll .standard kinReordered).2 = none :=
    snd_runAll Settings.canJoin_standard kinReordered
  have hvalues :
      ((runAll .standard kin).1.registry.completed.keys,
        ((runAll .standard kin).1.doclet 3).pending) =
      ([Text.ofString "C", "P#m", "C#m"], [⟨"X", .paramsOnly, 0⟩]) := by cbv
  simp only [Prod.mk.injEq] at hvalues
  obtain ⟨hkeys, hleft⟩ := hvalues
  obtain ⟨hleast, hpending, -, horder⟩ := isLeast_completed hfresh (Prod.ext rfl hnone)
  obtain ⟨hsame, hrecorded⟩ := horder _ _ _ reorders_kin (Prod.ext rfl hnone')
  have hrecorded := hrecorded overridesAgree_kin
  have hx := (hpending 3 (by decide)).2
  rw [hkeys] at hleast hx
  have hmember : recorded .standard kin 1 = [⟨"P#m", .full, 0⟩] := by cbv
  exact ⟨hfresh, hnone, hleast, hx.symm.trans hleft, (hrecorded 1 (by decide)).trans hmember,
    (hsame hrecorded 3 (by decide)).trans hleft⟩

/-- One who waits for the member, the class, and the member. -/
def classFirst : List Doclet := [.tagged "D" [⟨"inheritdoc", "C#m"⟩], subclass, member]

/-- The member comes before its class. -/
def memberFirst : List Doclet := [.tagged "D" [⟨"inheritdoc", "C#m"⟩], member, subclass]

/-- After its class the member waits for one that never comes, and before it the member waits for no
one; and so whoever waits for the member waits on in the one order, and not in the other. -/
theorem not_pending_iff_of_reorders : ¬∀ (settings : Settings) (place : Equiv.Perm DocletId)
    (doclets doclets' : List Doclet) (run run' : Run),
    (∀ d ∈ doclets, d.IsFresh) → Reorders place doclets doclets' →
    runAll settings doclets = (run, none) → runAll settings doclets' = (run', none) →
    ∀ id ∈ documented settings doclets, ∀ e ∈ recorded settings doclets id,
      e ∈ recorded settings doclets' (place id) →
      (e ∈ (run.doclet id).pending ↔ e ∈ (run'.doclet (place id)).pending) := by
  intro h
  have hfresh : ∀ d ∈ classFirst, d.IsFresh := by
    simp [classFirst, isFresh_member, isFresh_subclass, Doclet.isFresh_tagged]
  have hplace : Reorders (Equiv.swap 1 2) classFirst memberFirst :=
    reorders_swap [.tagged "D" [⟨"inheritdoc", "C#m"⟩]] [] subclass member
  have hvalues :
      (((runAll .standard classFirst).1.doclet 0).pending,
        ((runAll .standard memberFirst).1.doclet 0).pending) =
      ([⟨"C#m", .full, 0⟩], []) := by cbv
  simp only [Prod.mk.injEq] at hvalues
  obtain ⟨hclass, hmember⟩ := hvalues
  have hiff := h .standard (Equiv.swap 1 2) classFirst memberFirst _ _ hfresh hplace
    (Prod.ext rfl (snd_runAll Settings.canJoin_standard classFirst))
    (Prod.ext rfl (snd_runAll Settings.canJoin_standard memberFirst))
    0 (by decide) ⟨"C#m", .full, 0⟩ (by decide +kernel) (by decide +kernel)
  have hsame : (Equiv.swap 1 2 : Equiv.Perm DocletId) 0 = 0 := rfl
  rw [hsame, hclass, hmember] at hiff
  exact absurd (hiff.mp List.mem_cons_self) List.not_mem_nil

end Resolution

end DocLineage
