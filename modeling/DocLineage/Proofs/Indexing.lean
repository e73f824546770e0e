import DocLineage.Index
import DocLineage.Proofs.Loading
import DocLineage.Proofs.Lookup
import Mathlib.Data.List.Dedup

/-!
# What an index depends on

The longnames are sorted before they are entered, and a longname that is entered once more leaves
the index as it is. So an index depends on nothing but the longnames that are wanted: neither the
order of the doclets counts nor how many of them share a longname, and a list that cannot be indexed
fails in the same way, however it is ordered.

## Main definitions

* `Index.Wants` — a longname is to be indexed
* `Index.enter` — the index with one longname entered
* `Index.opened`, `Index.putAt` — what a longname does to the index, part by part

## Main results

* `Text.sorted_eq` — a sorted list without repetitions is known from its elements
* `Index.place_eq_putAt` — a longname is entered part by part
* `Index.enter_enter` — a longname that is entered once more changes nothing
* `Index.build_eq_of_wants` — an index depends on the wanted longnames alone
-/

namespace DocLineage

/-! ### The order of texts -/

namespace Symbol

instance : LE Symbol := ⟨fun s t => s.code ≤ t.code⟩

instance : Std.IsLinearOrder Symbol where
  le_refl s := Nat.le_refl s.code
  le_trans _ _ _ h h' := Nat.le_trans h h'
  le_antisymm _ _ h h' := code_inj (Nat.le_antisymm h h')
  le_total s t := Nat.le_total s.code t.code

instance : Std.LawfulOrderLT Symbol where
  lt_iff _ _ := Nat.lt_iff_le_and_not_ge

end Symbol

namespace Text

theorem le_iff {s t : Text} : le s t = true ↔ s ≤ t := decide_eq_true_iff

/-- Sorting puts texts in order. -/
theorem pairwise_mergeSort (ts : List Text) : (ts.mergeSort le).Pairwise (· ≤ ·) := by
  have hsorted : (ts.mergeSort le).Pairwise fun s t => le s t = true := by
    apply List.pairwise_mergeSort
    · intro r s t hrs hst
      exact le_iff.mpr (List.le_trans (le_iff.mp hrs) (le_iff.mp hst))
    · intro s t
      rw [Bool.or_eq_true, le_iff, le_iff]
      exact List.le_total s t
  exact hsorted.imp le_iff.mp

/-- A sorted list without repetitions is known from its elements. -/
theorem sorted_eq {ts ts' : List Text} (hsorted : ts.Pairwise (· ≤ ·))
    (hsorted' : ts'.Pairwise (· ≤ ·)) (hnodup : ts.Nodup) (hnodup' : ts'.Nodup)
    (h : ∀ t, t ∈ ts ↔ t ∈ ts') : ts = ts' := by
  have hperm : ts.Perm ts' := (List.perm_ext_iff_of_nodup hnodup hnodup').mpr h
  exact hperm.eq_of_pairwise (fun _ _ _ _ => List.le_antisymm) hsorted hsorted'

end Text

namespace Index

/-! ### The wanted longnames -/

/-- A longname is to be indexed: it is not empty, and a doclet of a wanted kind bears it. -/
def Wants (wanted : List Text) (doclets : List Doclet) (name : Text) : Prop :=
  name ≠ [] ∧ ∃ d ∈ doclets, d.kind ∈ wanted ∧ d.longname = name

variable {wanted : List Text} {doclets doclets' : List Doclet} {name : Text}

theorem mem_longnames : name ∈ longnames wanted doclets ↔ Wants wanted doclets name := by
  simp only [longnames, List.mem_mergeSort, List.mem_map, List.mem_filter, Bool.and_eq_true,
    List.contains_iff_mem, Bool.not_eq_true', List.isEmpty_eq_false_iff]
  constructor
  · rintro ⟨d, ⟨hd, hkind, hne⟩, rfl⟩
    exact ⟨hne, d, hd, hkind, rfl⟩
  · rintro ⟨hne, d, hd, hkind, rfl⟩
    exact ⟨d, ⟨hd, hkind, hne⟩, rfl⟩

theorem pairwise_longnames (wanted : List Text) (doclets : List Doclet) :
    (longnames wanted doclets).Pairwise (· ≤ ·) :=
  Text.pairwise_mergeSort _

/-- The longnames are known when they have been brought into order somehow. -/
theorem longnames_eq {names : List Text} (hsorted : names.Pairwise (· ≤ ·))
    (hperm : ((doclets.filter fun d => wanted.contains d.kind && !d.longname.isEmpty).map
      Doclet.longname).Perm names) : longnames wanted doclets = names :=
  ((List.mergeSort_perm _ _).trans hperm).eq_of_pairwise (fun _ _ _ _ => List.le_antisymm)
    (pairwise_longnames wanted doclets) hsorted

/-! ### One longname -/

/-- The entries under what stands in some place, where new entries are made if nothing does. What is
no mapping is a fault. -/
def opened (fault : Value.Kind → Fault) : Option Value → Except Fault Mapping
  | none => .ok []
  | some (.map entries) => .ok entries
  | some v => .error (fault v.kind)

/-- The index with the link of a longname set where some parts lead. What stands in the way is one
fault where the link should go, and another one before. -/
def putAt (longname : Text) (index : Mapping) : List Text → Except Fault Mapping
  | [] => .ok (index.set "link" (link longname))
  | part :: rest => do
    let fault : Value.Kind → Fault := fun kind =>
      if rest = [] then .noAssignment kind else .lacks kind .child
    let entries ← opened fault (index.get? part)
    return index.set part (.map (← putAt longname entries rest))

variable {index index' : Mapping} {parts : List Text} {longname : Text}

/-- A longname is entered part by part. -/
theorem place_eq_putAt (h : parts ≠ []) : place longname index parts =
    putAt longname index parts := by
  -- on the parts: a page is set at the last one, and the ones before it are gone through
  induction parts generalizing index with
  | nil => exact absurd rfl h
  | cons part rest ih =>
    cases rest with
    | nil =>
      rw [place, putAt, page.eq_def]
      cases hget : index.get? part with
      | none => rfl
      | some v => cases v <;> rfl
    | cons next rest =>
      have hnext : ∀ index' : Mapping, place longname index' (next :: rest) =
          putAt longname index' (next :: rest) := fun _ => ih (List.cons_ne_nil next rest)
      rw [place, putAt]
      · cases hget : index.get? part with
        | none =>
          dsimp only
          rw [hnext]
          rfl
        | some v =>
          cases v with
          | map entries =>
            dsimp only
            rw [hnext]
            rfl
          | _ => rfl
      · exact fun h => List.cons_ne_nil _ _ h

/-- A link that is set once more changes nothing. -/
theorem putAt_putAt (h : putAt longname index parts = .ok index') :
    putAt longname index' parts = .ok index' := by
  induction parts generalizing index index' with
  | nil =>
    cases h
    exact congrArg Except.ok (Mapping.set_eq_self (Mapping.get?_set.trans (if_pos rfl)))
  | cons part rest ih =>
    obtain ⟨entries, -, h⟩ := Doclet.bind_eq_ok_iff.mp h
    obtain ⟨entries', hput, h⟩ := Doclet.bind_eq_ok_iff.mp h
    cases h
    -- below the part everything is as it was left
    have hget : (index.set part (.map entries')).get? part = some (.map entries') :=
      Mapping.get?_set.trans (if_pos rfl)
    rw [putAt, hget]
    change (putAt longname entries' rest >>= fun m =>
      pure ((index.set part (.map entries')).set part (.map m))) = _
    rw [ih hput]
    exact congrArg Except.ok (Mapping.set_eq_self hget)

/-- The index with one longname entered. -/
def enter (index : Mapping) (longname : Text) : Except Fault Mapping :=
  putAt longname index (Index.parts longname)

/-- A longname that is entered once more changes nothing. -/
theorem enter_enter (h : enter index longname = .ok index') :
    enter index' longname = .ok index' :=
  putAt_putAt h

/-- An index is built by entering the wanted longnames in order. -/
theorem build_eq (wanted : List Text) (doclets : List Doclet) :
    build wanted doclets = (longnames wanted doclets).foldlM enter [] := by
  unfold build
  congr 1
  -- a longname has at least one part
  funext index longname
  exact place_eq_putAt (Text.split_ne_nil _ _)

/-! ### Many longnames -/

/-- Of longnames that are sorted it is enough to enter each once. -/
theorem foldlM_enter_dedup {names : List Text} (h : names.Pairwise (· ≤ ·)) (index : Mapping) :
    names.dedup.foldlM enter index = names.foldlM enter index := by
  induction names generalizing index with
  | nil => rfl
  | cons name names ih =>
    obtain ⟨hfirst, hrest⟩ := List.pairwise_cons.mp h
    by_cases hmem : name ∈ names
    · -- a longname that comes again comes at once
      rw [List.dedup_cons_of_mem hmem, ih hrest]
      cases names with
      | nil => cases hmem
      | cons next names =>
        have hle : next ≤ name := by
          rcases List.mem_cons.mp hmem with rfl | hmem
          · exact List.le_refl _
          · exact (List.pairwise_cons.mp hrest).1 name hmem
        obtain rfl : name = next := List.le_antisymm (hfirst next List.mem_cons_self) hle
        rw [List.foldlM_cons (a := name) (l := name :: names), List.foldlM_cons]
        cases hentered : enter index name with
        | error fault => rfl
        | ok index' =>
          change names.foldlM enter index' = enter index' name >>= fun m => names.foldlM enter m
          rw [enter_enter hentered]
          rfl
    · rw [List.dedup_cons_of_notMem hmem, List.foldlM_cons, List.foldlM_cons]
      exact congrArg _ (funext fun index' => ih hrest index')

/-- An index depends on the wanted longnames alone: doclets in any order and with any repetitions
give the same entries in the same order, or the same fault, if the same longnames are wanted of
them. -/
theorem build_eq_of_wants (h : ∀ name, Wants wanted doclets name ↔ Wants wanted doclets' name) :
    build wanted doclets = build wanted doclets' := by
  -- without repetitions, the two sorted lists are the same
  have hsame : (longnames wanted doclets).dedup = (longnames wanted doclets').dedup := by
    apply Text.sorted_eq
    · exact (pairwise_longnames wanted doclets).sublist (List.dedup_sublist _)
    · exact (pairwise_longnames wanted doclets').sublist (List.dedup_sublist _)
    · exact List.nodup_dedup _
    · exact List.nodup_dedup _
    · intro name
      rw [List.mem_dedup, List.mem_dedup, mem_longnames, mem_longnames, h]
  calc build wanted doclets
      = (longnames wanted doclets).dedup.foldlM enter [] := by
        rw [build_eq, foldlM_enter_dedup (pairwise_longnames wanted doclets)]
    _ = (longnames wanted doclets').dedup.foldlM enter [] := by rw [hsame]
    _ = build wanted doclets' := by
        rw [build_eq, foldlM_enter_dedup (pairwise_longnames wanted doclets')]

/-- Two classes in descending order, and something else. -/
def descending : List Doclet :=
  [{ longname := "b.c", kind := "class" }, { longname := "a", kind := "class" },
    { longname := "f", kind := "function" }]

/-- The same classes in ascending order, one of them twice, and one without a longname. -/
def repeating : List Doclet :=
  [{ longname := "a", kind := "class" }, { longname := "b.c", kind := "class" },
    { longname := "a", kind := "class" }, { kind := "class" }]

theorem longnames_descending : longnames ["class"] descending = [Text.ofString "a", "b.c"] :=
  longnames_eq (by decide) (by decide)

theorem longnames_repeating : longnames ["class"] repeating = [Text.ofString "a", "a", "b.c"] :=
  longnames_eq (by decide) (by decide)

/-- Both have the same index, with the classes in ascending order. -/
theorem build_eq_of_wants_repeating :
    (∀ name, Wants ["class"] descending name ↔ Wants ["class"] repeating name) ∧
      build ["class"] descending = build ["class"] repeating ∧
      build ["class"] repeating = .ok [
        (.text "a", .map [(.text "link", .text "a.html")]),
        (.text "b", .map [(.text "c", .map [(.text "link", .text "b.c.html")])])] := by
  have hwants : ∀ name, Wants ["class"] descending name ↔ Wants ["class"] repeating name := by
    intro name
    rw [← mem_longnames, ← mem_longnames, longnames_descending, longnames_repeating]
    simp only [List.mem_cons, or_self_left]
  refine ⟨hwants, build_eq_of_wants hwants, ?_⟩
  rw [build_eq, longnames_repeating]
  rfl

end Index

end DocLineage
