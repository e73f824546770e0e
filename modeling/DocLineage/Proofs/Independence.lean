import DocLineage.Doclet.ToMapping
import DocLineage.Proofs.Prose
import DocLineage.Proofs.SideBySide

/-!
# Lists that do not refer to each other

Two lists of doclets that have no name in common, and neither of which refers to a name of the
other, can be resolved as one list in any order that keeps the order of each. Every doclet ends as
it does when its own list is resolved alone, although all of them share the tables of the run, may
wait for the same missing name, and may stand for the same code.

## Main definitions

* `Doclet.moved` — a doclet in a run where the doclets are at other places
* `Interleaves` — the places of the entries of two lists that are put together
* `Resolution.Independent` — two lists that do not refer to each other

## Main results

* `Interleaving.exists_interleaves` — however two lists are put together, their entries have places
* `Resolution.Independent.joint` — a run over both lists mirrors the runs over each of them
* `Resolution.Independent.runAll` — both lists end as they do alone
-/

namespace DocLineage

/-! ### Places -/

/-- Two lists put together, where the places of their entries are known. -/
structure Interleaves {α : Type} (f g : Nat → Nat) (xs ys zs : List α) : Prop where
  places : Interleaving ((List.range xs.length).map f) ((List.range ys.length).map g)
    (List.range zs.length)
  left : ∀ i < xs.length, zs[f i]? = xs[i]?
  right : ∀ i < ys.length, zs[g i]? = ys[i]?

namespace Interleaves

variable {α : Type} {f g : Nat → Nat} {xs ys zs : List α}

theorem symm (h : Interleaves f g xs ys zs) : Interleaves g f ys xs zs :=
  ⟨h.places.symm, h.right, h.left⟩

theorem lt (h : Interleaves f g xs ys zs) {i : Nat} (hi : i < xs.length) : f i < zs.length := by
  have hmem : f i ∈ List.range zs.length := by
    rw [h.places.perm.mem_iff, List.mem_append]
    exact Or.inl (List.mem_map_of_mem (List.mem_range.mpr hi))
  exact List.mem_range.mp hmem

theorem nodup (h : Interleaves f g xs ys zs) :
    ((List.range xs.length).map f ++ (List.range ys.length).map g).Nodup :=
  h.places.perm.nodup_iff.mp List.nodup_range

/-- No place is taken twice. -/
theorem injective (h : Interleaves f g xs ys zs) {i j : Nat} (hi : i < xs.length)
    (hj : j < xs.length) (heq : f i = f j) : i = j :=
  List.inj_on_of_nodup_map (List.nodup_append.mp h.nodup).1 (List.mem_range.mpr hi)
    (List.mem_range.mpr hj) heq

/-- No place is taken by both lists. -/
theorem apart (h : Interleaves f g xs ys zs) {i j : Nat} (hi : i < xs.length)
    (hj : j < ys.length) : f i ≠ g j :=
  (List.nodup_append.mp h.nodup).2.2 _ (List.mem_map_of_mem (List.mem_range.mpr hi)) _
    (List.mem_map_of_mem (List.mem_range.mpr hj))

/-- Every entry comes from one of the lists. -/
theorem mem_or_mem (h : Interleaves f g xs ys zs) {z : α} (hz : z ∈ zs) : z ∈ xs ∨ z ∈ ys := by
  obtain ⟨k, hk, rfl⟩ := List.getElem_of_mem hz
  have hmem := h.places.perm.mem_iff.mp (List.mem_range.mpr hk)
  rcases List.mem_append.mp hmem with hmem | hmem
  · obtain ⟨i, hi, rfl⟩ := List.mem_map.mp hmem
    have heq := h.left i (List.mem_range.mp hi)
    rw [List.getElem?_eq_getElem hk] at heq
    exact Or.inl (List.mem_of_getElem? heq.symm)
  · obtain ⟨i, hi, rfl⟩ := List.mem_map.mp hmem
    have heq := h.right i (List.mem_range.mp hi)
    rw [List.getElem?_eq_getElem hk] at heq
    exact Or.inr (List.mem_of_getElem? heq.symm)

/-- One more entry from the left takes the next place. -/
theorem snoc (h : Interleaves f g xs ys zs) (x : α) :
    Interleaves (fun i => if i = xs.length then zs.length else f i) g (xs ++ [x]) ys
      (zs ++ [x]) := by
  have hsame : ∀ i < xs.length, (if i = xs.length then zs.length else f i) = f i := fun i hi =>
    if_neg (Nat.ne_of_lt hi)
  have hold : ∀ i < xs.length, (zs ++ [x])[f i]? = (xs ++ [x])[i]? := by
    intro i hi
    rw [List.getElem?_append_left (h.lt hi), List.getElem?_append_left hi]
    exact h.left i hi
  refine ⟨?_, ?_, ?_⟩
  · have hmap : (List.range xs.length).map (fun i => if i = xs.length then zs.length else f i) =
        (List.range xs.length).map f :=
      List.map_congr_left fun i hi => hsame i (List.mem_range.mp hi)
    rw [List.length_append, List.length_append, List.length_singleton, List.range_succ,
      List.range_succ, List.map_append, hmap, List.map_singleton, if_pos rfl]
    exact h.places.left zs.length
  · intro i hi
    rw [List.length_append, List.length_singleton] at hi
    rcases Nat.lt_succ_iff_lt_or_eq.mp hi with hi | rfl
    · rw [hsame i hi]
      exact hold i hi
    · rw [if_pos rfl, List.getElem?_concat_length, List.getElem?_concat_length]
  · intro i hi
    rw [List.getElem?_append_left (h.symm.lt hi)]
    exact h.right i hi

end Interleaves

/-- One list put behind the other. -/
theorem interleaves_append {α : Type} (xs ys : List α) :
    Interleaves (fun i => i) (xs.length + ·) xs ys (xs ++ ys) where
  places := by
    have hxs : Interleaving (List.range xs.length) [] (List.range xs.length) :=
      Interleaving.nil.append_left _
    have hys := hxs.symm.append_left ((List.range ys.length).map (xs.length + ·))
    rw [List.map_id', List.length_append, List.range_add]
    exact hys.symm
  left i hi := List.getElem?_append_left hi
  right i _ := by
    rw [List.getElem?_append_right (Nat.le_add_right _ _), Nat.add_sub_cancel_left]

/-- However two lists are put together, their entries have places. -/
theorem Interleaving.exists_interleaves {α : Type} {xs ys zs : List α}
    (h : Interleaving xs ys zs) : ∃ f g, Interleaves f g xs ys zs := by
  induction h with
  | nil => exact ⟨fun i => i, fun i => i, .nil, nofun, nofun⟩
  | left x _ ih =>
    obtain ⟨f, g, h⟩ := ih
    exact ⟨_, g, h.snoc x⟩
  | right y _ ih =>
    obtain ⟨f, g, h⟩ := ih
    exact ⟨f, _, (h.symm.snoc y).symm⟩

/-! ### Doclets at other places -/

/-- The doclet in a run where the doclets are at other places. -/
def Doclet.moved (f : DocletId → DocletId) (d : Doclet) : Doclet :=
  { d with enclosing := d.enclosing.map f }

/-- A fresh doclet is the same wherever it is. -/
theorem Doclet.IsFresh.moved_eq {d : Doclet} (h : d.IsFresh) (f : DocletId → DocletId) :
    d.moved f = d := by
  rw [moved, h.enclosing]
  change { d with enclosing := none } = d
  rw [← h.enclosing]

/-- The counterparts are the doclets themselves, at other places. -/
def Mirror.moving (settings : Settings) (f : DocletId → DocletId) (Own Foreign : Text → Prop)
    (disjoint : ∀ n, Own n → ¬Foreign n) : Mirror settings where
  place := f
  Alike d d' := d' = d.moved f
  Own := Own
  Foreign := Foreign
  disjoint := disjoint
  course := by
    rintro d _ rfl
    rfl
  declare := by
    rintro d _ ancestor mode rfl
    rfl
  mark := by
    rintro d _ mark rfl
    rfl
  link := by
    rintro d _ target rfl
    have hsee : (d.moved f).see = d.see := rfl
    unfold Doclet.addLink
    rw [hsee]
    by_cases hnew : (settings.addsSeeLinks && !d.see.contains target) = true
    · rw [if_pos hnew, if_pos hnew]
      rfl
    · rw [if_neg hnew, if_neg hnew]
  enclose := by
    rintro d _ x rfl
    rfl
  inherit := by
    rintro d _ ancestor _ mode rank rfl rfl
    cases mode <;> rfl
  pending := by
    rintro d _ pending rfl
    rfl

namespace Resolution

/-- The names that the doclets of a list go by. -/
def Names (doclets : List Doclet) (n : Text) : Prop := n ≠ [] ∧ ∃ d ∈ doclets, d.longname = n

/-- Two lists that have no name in common and do not refer to each other, whichever ancestors and
enclosing classes the doclets of each list refer to when the list is resolved alone. -/
structure Independent (settings : Settings) (doclets₁ doclets₂ : List Doclet) : Prop where
  names : ∀ n, Names doclets₁ n → ¬Names doclets₂ n
  left : ∀ n, Refers settings doclets₁ n → ¬Names doclets₂ n
  right : ∀ n, Refers settings doclets₂ n → ¬Names doclets₁ n

namespace Independent

variable {settings : Settings} {doclets doclets₁ doclets₂ : List Doclet} {run₁ run₂ : Run}
  {f g : DocletId → DocletId}

theorem names' (h : Independent settings doclets₁ doclets₂) (n : Text) (hn : Names doclets₂ n) :
    ¬Names doclets₁ n :=
  fun hn' => h.names n hn' hn

/-- The doclets of the list on the left, in a run over both lists. -/
def onLeft (h : Independent settings doclets₁ doclets₂) (f : DocletId → DocletId) :
    Mirror settings :=
  .moving settings f (Names doclets₁) (Names doclets₂) h.names

/-- The doclets of the list on the right. -/
def onRight (h : Independent settings doclets₁ doclets₂) (g : DocletId → DocletId) :
    Mirror settings :=
  .moving settings g (Names doclets₂) (Names doclets₁) h.names'

theorem alike_start (hfresh : ∀ d ∈ doclets₁, d.IsFresh)
    (hplaces : Interleaves f g doclets₁ doclets₂ doclets) {id : DocletId}
    (hid : id < doclets₁.length) :
    (Run.start doclets).doclet (f id) = ((Run.start doclets₁).doclet id).moved f := by
  have hsame := hplaces.left id hid
  rw [doclet_start hid, (hfresh _ (List.getElem_mem hid)).moved_eq,
    doclet_start (hplaces.lt hid)]
  rw [List.getElem?_eq_getElem hid, List.getElem?_eq_getElem (hplaces.lt hid)] at hsame
  exact Option.some.inj hsame

theorem beside_start (h : Independent settings doclets₁ doclets₂)
    (hfresh₁ : ∀ d ∈ doclets₁, d.IsFresh) (hfresh₂ : ∀ d ∈ doclets₂, d.IsFresh)
    (hplaces : Interleaves f g doclets₁ doclets₂ doclets) :
    Mirror.Beside (h.onLeft f) (h.onRight g) (Run.start doclets₁) (Run.start doclets₂)
      (Run.start doclets) where
  left := by
    apply Mirror.holds_start hfresh₁
    · exact fun id hid => hplaces.lt hid
    · exact fun x hx y hy => hplaces.injective hx hy
    · exact fun id hid => alike_start hfresh₁ hplaces hid
    · exact fun d hd hne => ⟨hne, d, hd, rfl⟩
  right := by
    apply Mirror.holds_start hfresh₂
    · exact fun id hid => hplaces.symm.lt hid
    · exact fun x hx y hy => hplaces.symm.injective hx hy
    · exact fun id hid => alike_start hfresh₂ hplaces.symm hid
    · exact fun d hd hne => ⟨hne, d, hd, rfl⟩
  apart x hx y hy := hplaces.apart hx hy
  foreign_right _ hn := hn
  foreign_left _ hn := hn

/-- A run over both lists mirrors the runs over each of them. -/
theorem joint (h : Independent settings doclets₁ doclets₂)
    (hfresh₁ : ∀ d ∈ doclets₁, d.IsFresh) (hfresh₂ : ∀ d ∈ doclets₂, d.IsFresh)
    (hended₁ : (Resolution.runAll settings doclets₁).2 = none)
    (hended₂ : (Resolution.runAll settings doclets₂).2 = none)
    (hplaces : Interleaves f g doclets₁ doclets₂ doclets) :
    Joint (h.onLeft f) (h.onRight g) doclets₁ doclets₂ doclets doclets₁.length doclets₂.length
      doclets.length := by
  have hfresh : ∀ d ∈ doclets, d.IsFresh := by
    intro d hd
    rcases hplaces.mem_or_mem hd with hd | hd
    · exact hfresh₁ d hd
    · exact hfresh₂ d hd
  apply joint_of_interleaving hfresh
  · exact ⟨hfresh₁, hended₁, h.left⟩
  · exact ⟨hfresh₂, hended₂, h.right⟩
  · exact hplaces.places
  · exact h.beside_start hfresh₁ hfresh₂ hplaces

/-- In a run over both lists every doclet ends as it does in a run over its own list, and what is
dropped and ignored is what is in either of these runs. -/
theorem exists_run (h : Independent settings doclets₁ doclets₂)
    (hfresh₁ : ∀ d ∈ doclets₁, d.IsFresh) (hfresh₂ : ∀ d ∈ doclets₂, d.IsFresh)
    (hrun₁ : Resolution.runAll settings doclets₁ = (run₁, none))
    (hrun₂ : Resolution.runAll settings doclets₂ = (run₂, none))
    (hplaces : Interleaves f g doclets₁ doclets₂ doclets) :
    ∃ run, Resolution.runAll settings doclets = (run, none) ∧
      (∀ id < doclets₁.length, run.doclet (f id) = (run₁.doclet id).moved f) ∧
      (∀ id < doclets₂.length, run.doclet (g id) = (run₂.doclet id).moved g) ∧
      Interleaving run₁.dropped run₂.dropped run.dropped ∧
      Interleaving run₁.ignored run₂.ignored run.ignored := by
  have hjoint := h.joint hfresh₁ hfresh₂ (congrArg Prod.snd hrun₁) (congrArg Prod.snd hrun₂)
    hplaces
  have hend : ∀ ds : List Doclet, runBefore settings ds ds.length =
      (Resolution.runAll settings ds).1 := fun _ => rfl
  have hsize₁ := (execution hfresh₁ hrun₁).size_eq
  have hsize₂ := (execution hfresh₂ hrun₂).size_eq
  obtain ⟨hnone, hbeside, hdropped, hignored, -, -⟩ := hjoint
  rw [hend, hend, hend, hrun₁, hrun₂] at hbeside
  rw [hend, hend, hend, hrun₁, hrun₂] at hdropped hignored
  refine ⟨_, Prod.ext rfl hnone, ?_, ?_, hdropped, hignored⟩
  · exact fun id hid => hbeside.left.alike id (hsize₁ ▸ hid)
  · exact fun id hid => hbeside.right.alike id (hsize₂ ▸ hid)

end Independent

/-- What is written of the doclets of a list when it is resolved. -/
def written (settings : Settings) (doclets : List Doclet) : List Mapping :=
  (runAll settings doclets).1.doclets.toList.map Doclet.toMapping

theorem written_eq {settings : Settings} {doclets : List Doclet} {run : Run}
    (hfresh : ∀ d ∈ doclets, d.IsFresh) (hrun : runAll settings doclets = (run, none)) :
    written settings doclets =
      (List.range doclets.length).map fun id => (run.doclet id).toMapping := by
  have hsize : run.doclets.size = doclets.length := (execution hfresh hrun).size_eq
  rw [written, hrun, Run.toList_doclets, hsize, List.map_map]
  rfl

/-- Two lists that do not refer to each other can be resolved as one list, in any order that keeps
the order of each: every doclet ends as it does when its own list is resolved alone, and what is
dropped and ignored is what is when they are resolved alone. So what is written when one list is put
behind the other is what is written when each of them is resolved alone. -/
theorem Independent.runAll_interleaves {settings : Settings}
    {doclets doclets₁ doclets₂ : List Doclet} {run₁ run₂ : Run} {f g : DocletId → DocletId}
    (h : Independent settings doclets₁ doclets₂)
    (hfresh₁ : ∀ d ∈ doclets₁, d.IsFresh) (hfresh₂ : ∀ d ∈ doclets₂, d.IsFresh)
    (hrun₁ : Resolution.runAll settings doclets₁ = (run₁, none))
    (hrun₂ : Resolution.runAll settings doclets₂ = (run₂, none))
    (hplaces : Interleaves f g doclets₁ doclets₂ doclets) :
    (∃ run, Resolution.runAll settings doclets = (run, none) ∧
      (∀ id < doclets₁.length, run.doclet (f id) = (run₁.doclet id).moved f) ∧
      (∀ id < doclets₂.length, run.doclet (g id) = (run₂.doclet id).moved g) ∧
      Interleaving run₁.dropped run₂.dropped run.dropped ∧
      Interleaving run₁.ignored run₂.ignored run.ignored) ∧
    written settings (doclets₁ ++ doclets₂) =
      written settings doclets₁ ++ written settings doclets₂ := by
  refine ⟨h.exists_run hfresh₁ hfresh₂ hrun₁ hrun₂ hplaces, ?_⟩
  obtain ⟨run, hrun, hleft, hright, -⟩ := h.exists_run hfresh₁ hfresh₂ hrun₁ hrun₂
    (interleaves_append doclets₁ doclets₂)
  have hfresh : ∀ d ∈ doclets₁ ++ doclets₂, d.IsFresh := by
    intro d hd
    rcases List.mem_append.mp hd with hd | hd
    · exact hfresh₁ d hd
    · exact hfresh₂ d hd
  rw [written_eq hfresh hrun, written_eq hfresh₁ hrun₁, written_eq hfresh₂ hrun₂,
    List.length_append, List.range_add, List.map_append, List.map_map]
  congr 1
  · refine List.map_congr_left fun id hid => ?_
    rw [hleft id (List.mem_range.mp hid)]
    rfl
  · refine List.map_congr_left fun id hid => ?_
    rw [Function.comp_apply, hright id (List.mem_range.mp hid)]
    rfl

/-- A doclet with two ancestors, one of which is missing, and the other one. -/
def household : List Doclet :=
  [.tagged "D" [⟨"inheritdoc", "A"⟩, ⟨"inheritdoc", "M"⟩],
    (Doclet.tagged "A" []).described "of A"]

/-- A doclet of another list that waits for the same missing ancestor. -/
def lodger : List Doclet := [.tagged "E" [⟨"inheritdoc", "M"⟩]]

/-- Both lists, put together. -/
def lodging : List Doclet :=
  [.tagged "D" [⟨"inheritdoc", "A"⟩, ⟨"inheritdoc", "M"⟩], .tagged "E" [⟨"inheritdoc", "M"⟩],
    (Doclet.tagged "A" []).described "of A"]

theorem isFresh_household : ∀ d ∈ household, d.IsFresh := by
  simp [household, Doclet.isFresh_tagged, Doclet.IsFresh.described]

theorem isFresh_lodger : ∀ d ∈ lodger, d.IsFresh := by
  simp [lodger, Doclet.isFresh_tagged]

/-- Doclets that override no member refer to nothing but the ancestors that their tags name. -/
theorem exists_tagged_of_refers {settings : Settings} {doclets : List Doclet} {n : Text}
    (hfresh : ∀ d ∈ doclets, d.IsFresh) (hended : (runAll settings doclets).2 = none)
    (hnone : ∀ id ∈ documented settings doclets, ((Run.start doclets).doclet id).overriding settings
      ((Run.start doclets).doclet id).tags = none) (h : Refers settings doclets n) :
    ∃ id ∈ documented settings doclets,
      ∃ e ∈ (((Run.start doclets).doclet id).applyTags settings).pending, e.identity = n := by
  cases h with
  | @ancestor id e hid he =>
    rw [recorded_of_not_overriding hfresh hended (lt_length_of_documented hid) (hnone id hid)] at he
    exact ⟨id, hid, e, he, rfl⟩
  | @enclosing id _ hid hne _ => exact absurd (hnone id hid) hne

theorem refers_household {n : Text} (h : Refers .standard household n) : n = "A" ∨ n = "M" := by
  have hended := snd_runAll Settings.canJoin_standard household
  obtain ⟨id, hid, e, he, rfl⟩ :=
    exists_tagged_of_refers isFresh_household hended (by decide +kernel) h
  have hall : ∀ id ∈ documented .standard household,
      ∀ e ∈ (((Run.start household).doclet id).applyTags .standard).pending,
        e.identity = "A" ∨ e.identity = "M" := by decide +kernel
  exact hall id hid e he

theorem refers_lodger {n : Text} (h : Refers .standard lodger n) : n = "M" := by
  have hended := snd_runAll Settings.canJoin_standard lodger
  obtain ⟨id, hid, e, he, rfl⟩ :=
    exists_tagged_of_refers isFresh_lodger hended (by decide +kernel) h
  have hall : ∀ id ∈ documented .standard lodger,
      ∀ e ∈ (((Run.start lodger).doclet id).applyTags .standard).pending,
        e.identity = "M" := by decide +kernel
  exact hall id hid e he

theorem independent_lodging : Independent .standard household lodger := by
  have hhousehold : ∀ n, Names household n → n = "D" ∨ n = "A" := by
    rintro n ⟨-, d, hd, rfl⟩
    simp only [household, List.mem_cons, List.not_mem_nil, or_false] at hd
    rcases hd with rfl | rfl
    · exact Or.inl rfl
    · exact Or.inr rfl
  have hlodger : ∀ n, Names lodger n → n = "E" := by
    rintro n ⟨-, d, hd, rfl⟩
    rw [List.mem_singleton.mp hd]
    rfl
  constructor
  · intro n hn hn'
    rw [hlodger n hn'] at hn
    exact absurd (hhousehold _ hn) (by decide)
  · intro n hn hn'
    rw [hlodger n hn'] at hn
    exact absurd (refers_household hn) (by decide)
  · intro n hn hn'
    rw [refers_lodger hn] at hn'
    exact absurd (hhousehold _ hn') (by decide)

/-- Where both lists are resolved as one, one doclet inherits and both of them are left waiting, as
they are when they are resolved alone. -/
theorem Independent.runAll_interleaves_lodging :
    Independent .standard household lodger ∧
      Interleaves (fun i => 2 * i) (fun _ => 1) household lodger lodging ∧
      ∃ run, Resolution.runAll .standard lodging = (run, none) ∧
        (run.doclet 0).description.text = some "of A" ∧
        (run.doclet 0).pending = [⟨"M", .full, 1⟩] ∧
        (run.doclet 1).pending = [⟨"M", .full, 0⟩] := by
  have hplaces : Interleaves (fun i => 2 * i) (fun _ => 1) household lodger lodging := by
    refine ⟨((Interleaving.nil.left 0).right 1).left 2, ?_, ?_⟩
    · intro i hi
      change i < 2 at hi
      interval_cases i <;> rfl
    · intro i hi
      change i < 1 at hi
      interval_cases i
      rfl
  have hrun : ∀ doclets, Resolution.runAll .standard doclets =
      ((Resolution.runAll .standard doclets).1, none) := fun doclets =>
    Prod.ext rfl (snd_runAll Settings.canJoin_standard doclets)
  have hhousehold : (((Resolution.runAll .standard household).1.doclet 0).description.text,
      ((Resolution.runAll .standard household).1.doclet 0).pending) =
      (some (Text.ofString "of A"), [⟨"M", .full, 1⟩]) := by cbv
  have hlodger : ((Resolution.runAll .standard lodger).1.doclet 0).pending =
      [⟨"M", .full, 0⟩] := by cbv
  obtain ⟨⟨run, hjoint, hleft, hright, -⟩, -⟩ :=
    independent_lodging.runAll_interleaves isFresh_household isFresh_lodger (hrun household)
      (hrun lodger) hplaces
  obtain ⟨htext, hpending⟩ := Prod.mk.inj hhousehold
  have hfirst := hleft 0 (by decide)
  have hsecond := hright 0 (by decide)
  refine ⟨independent_lodging, hplaces, run, hjoint, ?_, ?_, ?_⟩
  · exact (congrArg (fun d => d.description.text) hfirst).trans htext
  · exact (congrArg Doclet.pending hfirst).trans hpending
  · exact (congrArg Doclet.pending hsecond).trans hlodger

end Resolution

end DocLineage
