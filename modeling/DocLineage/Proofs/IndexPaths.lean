import DocLineage.Proofs.Indexing
import Mathlib.Data.List.Infix

/-!
# Where the paths of an index lead

The entries below an entry and the link of its page lie in one mapping, the link under a name that a
part of a longname may be as well. If a wanted longname goes on from another one with this part, it
runs into the link, and the index cannot be built. Otherwise it can: the parts of every wanted
longname lead to an entry with its link, and there are no other entries than those on the way, and
no other links.

The longnames are entered in order, so that whoever goes on from a longname comes after it. This is
why a link never takes the place of an entry.

## Main definitions

* `Value.follow?` — what is found when keys are followed
* `Index.IsNest` — a value that consists of mappings and texts only
* `Index.stop?` — an entry, a link or nothing at the end of a path
* `Index.Crosses` — a longname runs into the link of another one
* `Index.Charts` — an index has an entry with a link for every longname, and nothing else

## Main results

* `Index.stop?_putAt` — what is at the end of each path when a longname has been entered
* `Index.Describes.enter` — entering a longname adds the entries on its way and its link
* `Index.build_charts` — an index charts the wanted longnames, unless one crosses another
-/

namespace DocLineage

/-- What is found in a value when keys are followed one after the other. -/
def Value.follow? (v : Value) : List Text → Option Value
  | [] => some v
  | key :: path =>
    match v with
    | .map entries => (Mapping.get? entries key).bind fun w => w.follow? path
    | _ => none

theorem Value.follow?_append (v : Value) (path path' : List Text) :
    v.follow? (path ++ path') = (v.follow? path).bind fun w => w.follow? path' := by
  induction path generalizing v with
  | nil => rfl
  | cons key path ih =>
    cases v with
    | map entries =>
      change (Mapping.get? entries key).bind (fun w => w.follow? (path ++ path')) =
        ((Mapping.get? entries key).bind fun w => w.follow? path).bind fun w => w.follow? path'
      rw [Option.bind_assoc]
      exact Option.bind_congr fun w _ => ih w
    | _ => rfl

/-- A text between parts keeps apart what comes first. -/
theorem Text.join_prefix {between : Text} {ts ts' : List Text} (h : ts <+: ts') :
    join between ts <+: join between ts' := by
  induction ts generalizing ts' with
  | nil => exact List.nil_prefix
  | cons t ts ih =>
    cases ts' with
    | nil => exact absurd (List.prefix_nil.mp h) (List.cons_ne_nil _ _)
    | cons t' ts' =>
      obtain ⟨rfl, htail⟩ := List.cons_prefix_cons.mp h
      cases ts with
      | nil =>
        -- a first part stands alone, or is followed by what comes between
        cases ts' with
        | nil => exact List.prefix_rfl
        | cons t' ts' =>
          unfold join
          rw [List.intersperse_singleton, List.intersperse_cons_cons, List.flatten_cons,
            List.flatten_cons, List.flatten_nil, List.append_nil]
          exact List.prefix_append _ _
      | cons s ts =>
        cases ts' with
        | nil => exact absurd (List.prefix_nil.mp htail) (List.cons_ne_nil _ _)
        | cons s' ts' =>
          have hrest := ih htail
          unfold join at hrest ⊢
          rw [List.intersperse_cons_cons, List.intersperse_cons_cons, List.flatten_cons,
            List.flatten_cons, List.flatten_cons, List.flatten_cons]
          exact (List.prefix_append_right_inj _).mpr ((List.prefix_append_right_inj _).mpr hrest)

namespace Index

variable {index index' entries : Mapping} {longname n m key name t : Text} {v : Value}
  {parts path q : List Text} {names rest : List Text} {fault : Value.Kind → Fault}

/-! ### Nests -/

/-- A value that consists of texts, and of mappings whose keys are different texts, so that every
one of them is found under its key. -/
inductive IsNest : Value → Prop
  | link (t : Text) : IsNest (.text t)
  | entry {entries : Mapping} (hkeys : ∀ e ∈ entries, ∃ key, e.1 = .text key)
      (hnodup : entries.keys.Nodup) (hvalues : ∀ e ∈ entries, IsNest e.2) : IsNest (.map entries)

theorem isNest_nil : IsNest (.map []) :=
  .entry (List.forall_mem_nil _) List.nodup_nil (List.forall_mem_nil _)

theorem IsNest.set (h : IsNest (.map index)) (hv : IsNest v) : IsNest (.map (index.set key v)) := by
  cases h with
  | entry hkeys hnodup hvalues =>
    constructor
    · intro e he
      rcases Mapping.mem_of_mem_set he with he | rfl
      · exact hkeys e he
      · exact ⟨key, rfl⟩
    · exact Mapping.nodup_keys_set hnodup
    · intro e he
      rcases Mapping.mem_of_mem_set he with he | rfl
      · exact hvalues e he
      · exact hv

theorem IsNest.of_get? (h : IsNest (.map index)) (hv : index.get? key = some v) : IsNest v := by
  obtain ⟨k, -, hmem⟩ := Mapping.exists_of_find? hv
  cases h with
  | entry _ _ hvalues => exact hvalues _ hmem

/-! ### What is at the end of a path -/

/-- What may be at the end of a path. -/
inductive Stop where
  | entry
  | link (target : Text)

/-- What a value is for whoever comes upon it. -/
def Stop.of? : Value → Option Stop
  | .map _ => some .entry
  | .scalar (.text t) => some (.link t)
  | _ => none

theorem Stop.of?_eq_link_iff : Stop.of? v = some (.link t) ↔ v = .text t := by
  constructor
  · intro h
    unfold Stop.of? at h
    split at h <;> cases h
    rfl
  · rintro rfl
    rfl

/-- What is at the end of a path through an index. -/
def stop? (index : Mapping) (path : List Text) : Option Stop :=
  ((Value.map index).follow? path).bind Stop.of?

theorem stop?_cons : stop? index (key :: path) =
    (index.get? key).bind fun v => (v.follow? path).bind Stop.of? :=
  Option.bind_assoc _ _ _

theorem stop?_cons_of_map (h : index.get? key = some (.map entries)) :
    stop? index (key :: path) = stop? entries path := by
  rw [stop?_cons, h]
  rfl

theorem stop?_cons_of_text (h : index.get? key = some (.text t)) :
    stop? index (key :: path) = if path = [] then some (.link t) else none := by
  rw [stop?_cons, h]
  cases path <;> rfl

theorem stop?_set_of_ne (h : name ≠ key) :
    stop? (index.set name v) (key :: path) = stop? index (key :: path) := by
  rw [stop?_cons, stop?_cons, Mapping.get?_set, if_neg h]

theorem opened_eq_ok (h : opened fault (index.get? key) = .ok entries) :
    index.get? key = some (.map entries) ∨ index.get? key = none ∧ entries = [] := by
  unfold opened at h
  split at h
  · next hget =>
    cases h
    exact Or.inr ⟨hget, rfl⟩
  · next hget =>
    cases h
    exact Or.inl hget
  · cases h

/-- Below a part one comes upon what is below the entries that are opened there. -/
theorem stop?_of_opened (h : opened fault (index.get? key) = .ok entries) (hpath : path ≠ []) :
    stop? index (key :: path) = stop? entries path := by
  rcases opened_eq_ok h with hget | ⟨hget, rfl⟩
  · exact stop?_cons_of_map hget
  · rw [stop?_cons, hget]
    cases path with
    | nil => exact absurd rfl hpath
    | cons key path => rfl

/-- When a longname has been entered there are entries along its parts, and its link after them;
what was below the link is gone, and everything else is as before. -/
theorem stop?_putAt (h : putAt longname index parts = .ok index') (path : List Text) :
    stop? index' path =
      if path <+: parts then some .entry
      else if parts ++ [Text.ofString "link"] <+: path then
        if path = parts ++ [Text.ofString "link"] then some (.link (longname ++ ".html"))
        else none
      else stop? index path := by
  -- on the parts, with the path beside them: they go the same way until they part
  induction parts generalizing index index' path with
  | nil =>
    cases h
    cases path with
    | nil =>
      rw [if_pos List.nil_prefix]
      rfl
    | cons key path =>
      rw [if_neg (fun h => absurd (List.prefix_nil.mp h) (List.cons_ne_nil _ _)), List.nil_append]
      by_cases hkey : Text.ofString "link" = key
      · subst hkey
        have hget : (index.set "link" (link longname)).get? "link" =
            some (.text (longname ++ ".html")) := Mapping.get?_set.trans (if_pos rfl)
        rw [stop?_cons_of_text hget, if_pos (List.cons_prefix_cons.mpr ⟨rfl, List.nil_prefix⟩)]
        simp only [List.cons.injEq, true_and]
      · rw [stop?_set_of_ne hkey, if_neg fun h => hkey (List.cons_prefix_cons.mp h).1]
  | cons part rest ih =>
    obtain ⟨entries, hopened, h⟩ := Doclet.bind_eq_ok_iff.mp h
    obtain ⟨entries', hput, h⟩ := Doclet.bind_eq_ok_iff.mp h
    cases h
    cases path with
    | nil =>
      rw [if_pos List.nil_prefix]
      rfl
    | cons key path =>
      simp only [List.cons_append, List.cons_prefix_cons, List.cons.injEq]
      by_cases hkey : part = key
      · -- the path goes on below the part that has been set anew
        subst hkey
        rw [stop?_cons_of_map (Mapping.get?_set.trans (if_pos rfl)), ih hput path]
        simp only [true_and]
        split
        · rfl
        · next hnot =>
          have hne : path ≠ [] := by
            rintro rfl
            exact hnot List.nil_prefix
          rw [stop?_of_opened hopened hne]
      · -- the path leaves here, for what has not been touched
        rw [stop?_set_of_ne hkey, if_neg fun h => hkey h.1.symm, if_neg fun h => hkey h.1]

/-- A link on the way is a fault: there is no going on from it, and no link is set in it. -/
theorem putAt_of_link (hpath : path <+: parts) (hne : path ≠ [])
    (hstop : stop? index path = some (.link t)) :
    putAt longname index parts =
      .error (if path = parts then .noAssignment .text else .lacks .text .child) := by
  induction parts generalizing index path with
  | nil => exact absurd (List.prefix_nil.mp hpath) hne
  | cons part rest ih =>
    cases path with
    | nil => exact absurd rfl hne
    | cons key path =>
      obtain ⟨rfl, hrest⟩ := List.cons_prefix_cons.mp hpath
      rw [putAt]
      cases hget : index.get? key with
      | none =>
        rw [stop?_cons, hget] at hstop
        cases hstop
      | some v =>
        by_cases hend : path = []
        · -- the link is what is found under the part
          subst hend
          rw [stop?_cons, hget] at hstop
          obtain rfl : v = .text t := Stop.of?_eq_link_iff.mp hstop
          change Except.error (if rest = [] then _ else _) = _
          simp only [List.cons.injEq, true_and, eq_comm (a := ([] : List Text))]
          rfl
        · -- one goes on below the part, where there are entries
          obtain ⟨entries, rfl⟩ : ∃ entries, v = .map entries := by
            rw [stop?_cons, hget] at hstop
            cases path with
            | nil => exact absurd rfl hend
            | cons next path =>
              cases v with
              | map entries => exact ⟨entries, rfl⟩
              | _ => cases hstop
          rw [stop?_cons_of_map hget] at hstop
          change (putAt longname entries rest >>= _) = _
          rw [ih hrest hend hstop]
          simp only [List.cons.injEq, true_and]
          rfl

/-- Without a link on the way a longname can be entered in a nest. -/
theorem exists_putAt (hnest : IsNest (.map index))
    (h : ∀ path t, path <+: parts → path ≠ [] → stop? index path ≠ some (.link t)) :
    ∃ index', putAt longname index parts = .ok index' ∧ IsNest (.map index') := by
  induction parts generalizing index with
  | nil => exact ⟨_, rfl, hnest.set (.link _)⟩
  | cons part rest ih =>
    obtain ⟨entries, hopened, hentries⟩ : ∃ entries,
        (∀ fault, opened fault (index.get? part) = .ok entries) ∧ IsNest (.map entries) := by
      cases hget : index.get? part with
      | none => exact ⟨[], fun _ => rfl, isNest_nil⟩
      | some v =>
        -- what stands under the part is an entry, since it is no link
        have hv := hnest.of_get? hget
        cases hv with
        | link t =>
          have hlink : stop? index [part] = some (.link t) := stop?_cons_of_text hget
          exact absurd hlink (h [part] t (List.cons_prefix_cons.mpr ⟨rfl, List.nil_prefix⟩)
            (List.cons_ne_nil _ _))
        | entry hkeys hnodup hvalues => exact ⟨_, fun _ => rfl, .entry hkeys hnodup hvalues⟩
    obtain ⟨entries', hput, hentries'⟩ := ih hentries fun path t hpath hne hlink => by
      refine h (part :: path) t (List.cons_prefix_cons.mpr ⟨rfl, hpath⟩) (List.cons_ne_nil _ _) ?_
      rw [stop?_of_opened (hopened fun _ => .noAssignment .text) hne, hlink]
    refine ⟨index.set part (.map entries'), ?_, hnest.set hentries'⟩
    rw [putAt, hopened]
    change (putAt longname entries rest >>= _) = _
    rw [hput]
    rfl

/-! ### Longnames that go on from another one -/

/-- The parts of a longname, joined again. -/
theorem join_parts (longname : Text) : Text.join "." (Index.parts longname) = longname :=
  Text.flatten_intersperse_split _ _

theorem parts_inj (h : Index.parts n = Index.parts m) : n = m := by
  rw [← join_parts n, h, join_parts m]

/-- A longname runs into the link of another one: it goes on from it with the part that the link
stands under. -/
def Crosses (n m : Text) : Prop := Index.parts n ++ [Text.ofString "link"] <+: Index.parts m

/-- Whoever goes on from a longname comes after it. -/
theorem Crosses.le (h : Crosses n m) : n ≤ m := by
  have hparts : Index.parts n <+: Index.parts m := (List.prefix_append _ _).trans h
  have hprefix : Text.join "." (Index.parts n) <+: Text.join "." (Index.parts m) :=
    Text.join_prefix hparts
  rw [join_parts, join_parts] at hprefix
  exact hprefix.le

theorem Crosses.ne (h : Crosses n m) : n ≠ m := by
  rintro rfl
  have hlength := h.length_le
  rw [List.length_append, List.length_singleton] at hlength
  omega

/-- No longname runs into the link of another one. -/
def Clear (names : List Text) : Prop := ∀ n ∈ names, ∀ m ∈ names, ¬Crosses n m

/-- What an index has at the end of each path when some longnames have been entered: entries along
their parts, their links after these, and nothing else. -/
structure Describes (names : List Text) (index : Mapping) : Prop where
  nest : IsNest (.map index)
  entry : ∀ path, stop? index path = some .entry ↔
    path = [] ∨ ∃ n ∈ names, path <+: Index.parts n
  link : ∀ path t, stop? index path = some (.link t) ↔
    ∃ n ∈ names, path = Index.parts n ++ [Text.ofString "link"] ∧ t = n ++ ".html"

theorem describes_nil : Describes [] [] where
  nest := isNest_nil
  entry path := by
    cases path with
    | nil => exact ⟨fun _ => Or.inl rfl, fun _ => rfl⟩
    | cons key path => simp [stop?_cons, Mapping.get?]
  link path t := by
    cases path with
    | nil => simp [stop?, Value.follow?, Stop.of?]
    | cons key path => simp [stop?_cons, Mapping.get?]

/-- One more longname is the only one that may be new. -/
theorem exists_mem_concat_iff {P : Text → Prop} :
    (∃ n ∈ names ++ [m], P n) ↔ (∃ n ∈ names, P n) ∨ P m := by
  simp only [List.mem_append, List.mem_singleton, or_and_right, exists_or, exists_eq_left]

/-- The entries of an index when one more longname has been entered that no other one crosses. -/
theorem Describes.entry_enter (h : Describes names index) (hcrossed : ∀ n ∈ names, ¬Crosses m n)
    (henter : Index.enter index m = .ok index') (path : List Text) :
    stop? index' path = some .entry ↔
      path = [] ∨ ∃ n ∈ names ++ [m], path <+: Index.parts n := by
  rw [stop?_putAt henter, exists_mem_concat_iff]
  split
  · next hpath => exact ⟨fun _ => Or.inr (Or.inr hpath), fun _ => rfl⟩
  · next hpath =>
    have hne : path ≠ [] := by
      rintro rfl
      exact hpath List.nil_prefix
    split
    · next hbelow =>
      -- below the link there is no entry, and no other longname leads there
      constructor
      · intro hentry
        split at hentry <;> cases hentry
      · rintro (hnil | ⟨n, hn, hprefix⟩ | hself)
        · exact absurd hnil hne
        · exact absurd (hbelow.trans hprefix) (hcrossed n hn)
        · exact absurd hself hpath
    · rw [h.entry, or_iff_left hpath]

/-- The links of an index when one more longname has been entered that crosses no other one and that
no other one crosses. -/
theorem Describes.link_enter (h : Describes names index) (hcrosses : ∀ n ∈ names, ¬Crosses n m)
    (hcrossed : ∀ n ∈ names, ¬Crosses m n) (henter : Index.enter index m = .ok index')
    (path : List Text) (t : Text) :
    stop? index' path = some (.link t) ↔
      ∃ n ∈ names ++ [m], path = Index.parts n ++ [Text.ofString "link"] ∧ t = n ++ ".html" := by
  rw [stop?_putAt henter, exists_mem_concat_iff]
  split
  · next hpath =>
    -- on the way to the longname there is no link, or one of both would be crossed
    constructor
    · intro hlink
      cases hlink
    · rintro (⟨n, hn, rfl, -⟩ | ⟨rfl, -⟩)
      · exact absurd hpath (hcrosses n hn)
      · exact absurd rfl (Crosses.ne hpath)
  · split
    · next hbelow =>
      split
      · next hlink =>
        subst hlink
        constructor
        · intro ht
          cases ht
          exact Or.inr ⟨rfl, rfl⟩
        · rintro (⟨n, hn, hparts, rfl⟩ | ⟨-, rfl⟩)
          · rw [parts_inj (List.append_cancel_right hparts)]
          · rfl
      · next hne =>
        constructor
        · intro hlink
          cases hlink
        · rintro (⟨n, hn, rfl, -⟩ | ⟨rfl, -⟩)
          · -- the other longname would have to lead to this link, or through it
            rcases List.prefix_concat_iff.mp hbelow with heq | hcross
            · exact absurd heq.symm hne
            · exact absurd hcross (hcrossed n hn)
          · exact absurd rfl hne
    · next hbelow =>
      have hother : path ≠ Index.parts m ++ [Text.ofString "link"] := by
        rintro rfl
        exact hbelow List.prefix_rfl
      rw [h.link, or_iff_left fun hlink => hother hlink.1]

/-- A longname that crosses no other one and that no other one crosses can be entered. -/
theorem Describes.enter (h : Describes names index) (hcrosses : ∀ n ∈ names, ¬Crosses n m)
    (hcrossed : ∀ n ∈ names, ¬Crosses m n) :
    ∃ index', Index.enter index m = .ok index' ∧ Describes (names ++ [m]) index' := by
  have hclear : ∀ path t, path <+: Index.parts m → path ≠ [] →
      stop? index path ≠ some (.link t) := by
    intro path t hpath _ hlink
    obtain ⟨n, hn, rfl, -⟩ := (h.link path t).mp hlink
    exact hcrosses n hn hpath
  obtain ⟨index', henter, hnest⟩ := exists_putAt h.nest hclear
  exact ⟨index', henter, hnest, h.entry_enter hcrossed henter,
    h.link_enter hcrosses hcrossed henter⟩

/-- A longname that crosses one that has been entered runs into its link. -/
theorem Describes.enter_of_crosses (h : Describes names index) (hn : n ∈ names)
    (hcross : Crosses n m) : Index.enter index m =
      .error (if Index.parts n ++ [Text.ofString "link"] = Index.parts m then .noAssignment .text
        else .lacks .text .child) := by
  have hlink : stop? index (Index.parts n ++ [Text.ofString "link"]) =
      some (.link (n ++ ".html")) := (h.link _ _).mpr ⟨n, hn, rfl, rfl⟩
  exact putAt_of_link hcross (List.append_ne_nil_of_right_ne_nil _ (List.cons_ne_nil _ _)) hlink

/-! ### Whole indexes -/

/-- Longnames that are entered in order are described by the index, unless one of them crosses
another one; then the index cannot be built. -/
theorem Describes.foldlM_enter (h : Describes names index) (hclear : Clear names)
    (hsorted : (names ++ rest).Pairwise (· ≤ ·)) :
    match rest.foldlM Index.enter index with
    | .ok index' => Clear (names ++ rest) ∧ Describes (names ++ rest) index'
    | .error fault => ∃ n ∈ names ++ rest, ∃ m ∈ names ++ rest, Crosses n m ∧
        fault = if Index.parts n ++ [Text.ofString "link"] = Index.parts m then .noAssignment .text
          else .lacks .text .child := by
  -- the longnames that have been entered grow by one at a time, from the front of the list
  induction rest generalizing names index with
  | nil =>
    rw [List.append_nil]
    exact ⟨hclear, h⟩
  | cons m rest ih =>
    have hself : m ∈ names ++ m :: rest := List.mem_append_right _ List.mem_cons_self
    rw [List.foldlM_cons]
    by_cases hcross : ∃ n ∈ names, Crosses n m
    · obtain ⟨n, hn, hcross⟩ := hcross
      rw [h.enter_of_crosses hn hcross]
      exact ⟨n, List.mem_append_left _ hn, m, hself, hcross, rfl⟩
    · have hcrosses : ∀ n ∈ names, ¬Crosses n m := fun n hn h => hcross ⟨n, hn, h⟩
      -- whoever would cross a longname from behind would come after it
      have hcrossed : ∀ n ∈ names, ¬Crosses m n := by
        intro n hn hcross
        have hle : n ≤ m := (List.pairwise_append.mp hsorted).2.2 n hn m List.mem_cons_self
        exact hcross.ne (List.le_antisymm hcross.le hle)
      obtain ⟨index', henter, h'⟩ := h.enter hcrosses hcrossed
      have hclear' : Clear (names ++ [m]) := by
        intro n hn n' hn' hcross
        rcases List.mem_append.mp hn with hn | hn <;> rcases List.mem_append.mp hn' with hn' | hn'
        · exact hclear n hn n' hn' hcross
        · exact hcrosses n hn (List.mem_singleton.mp hn' ▸ hcross)
        · exact hcrossed n' hn' (List.mem_singleton.mp hn ▸ hcross)
        · exact hcross.ne ((List.mem_singleton.mp hn).trans (List.mem_singleton.mp hn').symm)
      have hassoc : names ++ m :: rest = (names ++ [m]) ++ rest := by
        rw [List.append_assoc, List.singleton_append]
      rw [henter, hassoc]
      exact ih h' hclear' (hassoc ▸ hsorted)

/-- An index charts some longnames: it consists of mappings and texts, the parts of each longname
lead from its root to an entry with the link of the longname, and every other entry that a path
leads to lies on the way to one of them, and has the text of a link only if the path is one of the
longnames itself. -/
structure Charts (names : Text → Prop) (index : Mapping) : Prop where
  nest : IsNest (.map index)
  reached : ∀ name, names name → ∃ entries : Mapping,
    (Value.map index).follow? (Index.parts name) = some (.map entries) ∧
      entries.get? "link" = some (link name)
  reaches : ∀ (path : List Text) (entries : Mapping), path ≠ [] →
    (Value.map index).follow? path = some (.map entries) →
    (∃ name, names name ∧ path <+: Index.parts name) ∧
      ∀ t, entries.get? "link" = some (.text t) → names (Text.join "." path)

theorem stop?_link_iff : stop? index (path ++ [Text.ofString "link"]) = some (.link t) ↔
    ∃ entries : Mapping, (Value.map index).follow? path = some (.map entries) ∧
      entries.get? "link" = some (.text t) := by
  rw [stop?, Value.follow?_append, Option.bind_assoc]
  constructor
  · intro h
    obtain ⟨v, hv, h⟩ := Option.bind_eq_some_iff.mp h
    cases v with
    | map entries =>
      obtain ⟨w, hw, hlink⟩ := Option.bind_eq_some_iff.mp h
      obtain ⟨w', hget, hsame⟩ := Option.bind_eq_some_iff.mp hw
      cases hsame
      exact ⟨entries, hv, hget.trans (congrArg some (Stop.of?_eq_link_iff.mp hlink))⟩
    | _ => cases h
  · rintro ⟨entries, hv, hget⟩
    rw [hv, Option.bind_some]
    change ((Mapping.get? entries "link").bind fun w => some w).bind Stop.of? = _
    rw [hget]
    rfl

theorem Describes.charts (h : Describes names index) : Charts (· ∈ names) index where
  nest := h.nest
  reached name hname := by
    have hlink : stop? index (Index.parts name ++ [Text.ofString "link"]) =
        some (.link (name ++ ".html")) := (h.link _ _).mpr ⟨name, hname, rfl, rfl⟩
    exact stop?_link_iff.mp hlink
  reaches path entries hne hpath := by
    have hentry : stop? index path = some .entry := by
      rw [stop?, hpath]
      rfl
    refine ⟨((h.entry path).mp hentry).resolve_left hne, fun t ht => ?_⟩
    -- the text is at the end of a path that only the link of a longname is at
    obtain ⟨n, hn, hparts, -⟩ := (h.link _ t).mp (stop?_link_iff.mpr ⟨entries, hpath, ht⟩)
    rw [List.append_cancel_right hparts, join_parts]
    exact hn

variable {wanted : List Text} {doclets : List Doclet}

/-- The index of some doclets charts their wanted longnames. It cannot be built only where one of
these goes on from another one with the part that links stand under: it cannot be entered below the
link, nor get a link of its own in its place. -/
theorem build_charts (wanted : List Text) (doclets : List Doclet) :
    match build wanted doclets with
    | .ok index => (∀ n m, Wants wanted doclets n → Wants wanted doclets m → ¬Crosses n m) ∧
        Charts (Wants wanted doclets) index
    | .error fault => ∃ n m, Wants wanted doclets n ∧ Wants wanted doclets m ∧ Crosses n m ∧
        fault = if Index.parts n ++ [Text.ofString "link"] = Index.parts m then .noAssignment .text
          else .lacks .text .child := by
  have hsorted : ([] ++ longnames wanted doclets).Pairwise (· ≤ ·) :=
    pairwise_longnames wanted doclets
  have hfold := describes_nil.foldlM_enter (List.forall_mem_nil _) hsorted
  have hnames : (· ∈ longnames wanted doclets) = Wants wanted doclets :=
    funext fun _ => propext mem_longnames
  rw [build_eq]
  cases hbuilt : (longnames wanted doclets).foldlM enter [] with
  | ok index =>
    rw [hbuilt] at hfold
    obtain ⟨hclear, hdescribes⟩ := hfold
    rw [← hnames]
    exact ⟨fun n m hn hm => hclear n hn m hm, hdescribes.charts⟩
  | error fault =>
    rw [hbuilt] at hfold
    obtain ⟨n, hn, m, hm, hcross, hfault⟩ := hfold
    exact ⟨n, m, mem_longnames.mp hn, mem_longnames.mp hm, hcross, hfault⟩

/-- A namespace, a class in a part of it that has no page, and a class whose last part is the one
that links stand under. -/
def library : List Doclet :=
  [{ longname := "app.ui.Button", kind := "class" }, { longname := "app", kind := "namespace" },
    { longname := "lib.link", kind := "class" }]

theorem longnames_library : longnames ["class", "namespace"] library =
    [Text.ofString "app", "app.ui.Button", "lib.link"] :=
  longnames_eq (by decide) (by decide)

/-- They cross each other nowhere, and all of them are found in the index. -/
theorem build_charts_library :
    ∃ index, build ["class", "namespace"] library = .ok index ∧
      index = [
        (.text "app", .map [(.text "link", .text "app.html"),
          (.text "ui", .map
            [(.text "Button", .map [(.text "link", .text "app.ui.Button.html")])])]),
        (.text "lib", .map [(.text "link", .map [(.text "link", .text "lib.link.html")])])] ∧
      Charts (Wants ["class", "namespace"] library) index := by
  have hbuilt := build_eq ["class", "namespace"] library
  have hcharts := build_charts ["class", "namespace"] library
  rw [longnames_library] at hbuilt
  rw [hbuilt] at hcharts
  exact ⟨_, hbuilt, rfl, hcharts.2⟩

/-- A class, and another one whose longname goes on from it with the part that links stand under. -/
def crossing : List Doclet :=
  [{ longname := "a", kind := "class" }, { longname := "a.link", kind := "class" }]

theorem longnames_crossing :
    longnames ["class"] crossing = [Text.ofString "a", "a.link"] :=
  longnames_eq (by decide) (by decide)

/-- Not every list of doclets has an index that charts their longnames. -/
theorem not_build_charts : ¬∀ wanted doclets, ∃ index, build wanted doclets = .ok index ∧
    Charts (Wants wanted doclets) index := by
  intro hall
  obtain ⟨index, hbuilt, -⟩ := hall ["class"] crossing
  rw [build_eq, longnames_crossing] at hbuilt
  cases hbuilt

end Index

end DocLineage
