import DocLineage.Files.Tree
import Mathlib.Data.List.Nodup
import Mathlib.Data.List.TakeWhile
import Mathlib.Tactic.MkIffOfInductiveProp

/-!
# What stands at a place, and where paths lead

A tree of files is known by what stands at its places. In a tree such as a file system holds, no
directory has a name twice, and every name can be asked for. Then the places that a walk through the
tree meets are those at which something stands, each of them once, and a path that goes on below a
directory leads to what stands there.

## Main definitions

* `Path.IsName` — what can name an entry of a directory
* `FileTree.IsProper` — the trees that a file system can hold
* `Storage.Leads` — what a path leads to, however long it is

## Main results

* `FileTree.mem_places`, `FileTree.IsProper.nodup_places` — the walk through a tree
* `Storage.Leads.below` — what a path below a directory leads to
* `Storage.find?_of_leads`, `Storage.read_of_leads` — what is found and read at the end of a path
-/

namespace DocLineage

namespace Table

variable {κ α : Type} [DecidableEq κ] {key : κ} {v : α} {es : List (κ × α)}

theorem mem_of_lookup (h : lookup key es = some v) : (key, v) ∈ es := by
  induction es with
  | nil => cases h
  | cons e es ih =>
    obtain ⟨k, w⟩ := e
    rw [lookup] at h
    split at h
    · next hk =>
      cases h
      rw [hk]
      exact List.mem_cons_self
    · exact List.mem_cons_of_mem _ (ih h)

/-- What is looked up under distinct keys are the entries. -/
theorem lookup_eq_some_iff (hnodup : (es.map Prod.fst).Nodup) :
    lookup key es = some v ↔ (key, v) ∈ es := by
  refine ⟨mem_of_lookup, fun h => ?_⟩
  induction es with
  | nil => cases h
  | cons e es ih =>
    obtain ⟨k, w⟩ := e
    rw [List.map_cons, List.nodup_cons] at hnodup
    rw [lookup]
    rcases List.mem_cons.mp h with heq | hmem
    · cases heq
      exact if_pos rfl
    · have hne : k ≠ key := by
        rintro rfl
        exact hnodup.1 (List.mem_map.mpr ⟨_, hmem, rfl⟩)
      rw [if_neg hne]
      exact ih hnodup.2 hmem

end Table

/-! ### Names -/

namespace Path

variable {p : Path} {t name : Text} {x : Symbol} {place : List Text}

/-- A name in the file system can hold the symbol. -/
def IsNameable (x : Symbol) : Prop := (!isHalf x || isByteHalf x) = true ∧ x ≠ .char '\x00'

instance : DecidablePred IsNameable := fun x =>
  inferInstanceAs (Decidable ((!isHalf x || isByteHalf x) = true ∧ x ≠ .char '\x00'))

/-- An entry of a directory can have the name, and is found under it. -/
@[mk_iff]
structure IsName (name : Text) : Prop where
  notUp : name ≠ ".."
  notLong : isLongSegment name = false
  nameable : ∀ x ∈ name, IsNameable x

instance : DecidablePred IsName := fun name => decidable_of_iff' _ (isName_iff name)

theorem unencodable?_eq_none_iff :
    unencodable? t = none ↔ ∀ x ∈ t, (!isHalf x || isByteHalf x) = true := by
  rw [← List.dropWhile_eq_nil_iff, unencodable?]
  cases t.dropWhile fun x => !isHalf x || isByteHalf x <;> simp

/-- A path can be asked for if its text has no symbol that a name cannot hold. -/
theorem checkedText_eq_ok_iff :
    p.checkedText = .ok t ↔ p.toText = t ∧ ∀ x ∈ p.toText, IsNameable x := by
  have hnull : p.toText.contains (.char '\x00') = false ↔ ∀ x ∈ p.toText, x ≠ .char '\x00' := by
    rw [List.contains_eq_mem, decide_eq_false_iff_not]
    exact List.forall_mem_ne'.symm
  simp only [IsNameable, forall_and, ← unencodable?_eq_none_iff, ← hnull]
  unfold checkedText
  dsimp only
  cases unencodable? p.toText with
  | some place => simp
  | none => cases p.toText.contains (.char '\x00') <;> simp

theorem forall_mem_join {between : Text} {parts : List Text} {q : Symbol → Prop}
    (h : ∀ x ∈ between, q x) :
    (∀ x ∈ Text.join between parts, q x) ↔ ∀ part ∈ parts, ∀ x ∈ part, q x := by
  induction parts with
  | nil => simp [Text.join]
  | cons part parts ih =>
    cases parts with
    | nil => simp [Text.join]
    | cons part' parts =>
      have hjoin : Text.join between (part :: part' :: parts) =
          part ++ (between ++ Text.join between (part' :: parts)) := by
        simp [Text.join]
      rw [hjoin, List.forall_mem_append, List.forall_mem_append, ih,
        List.forall_mem_cons (a := part)]
      exact and_congr_right fun _ => and_iff_right h

theorem forall_mem_toText : (∀ x ∈ p.toText, IsNameable x) ↔
    (∀ x ∈ p.lead, IsNameable x) ∧ ∀ segment ∈ p.segments, ∀ x ∈ segment, IsNameable x := by
  have hslash : ∀ x ∈ [slash], IsNameable x := by decide
  rw [← forall_mem_join hslash, ← List.forall_mem_append, toText]
  split
  · next hempty =>
    rw [List.isEmpty_iff.mp hempty]
    exact iff_of_true (by decide) (by simp)
  · exact Iff.rfl

/-- A path below another one can be asked for if that one can. -/
theorem checkedText_below (h : p.checkedText = .ok t) (hplace : ∀ name ∈ place, IsName name) :
    (p.below place).checkedText = .ok (p.below place).toText := by
  obtain ⟨-, hnameable⟩ := checkedText_eq_ok_iff.mp h
  obtain ⟨hlead, hsegments⟩ := forall_mem_toText.mp hnameable
  refine checkedText_eq_ok_iff.mpr ⟨rfl, forall_mem_toText.mpr ⟨hlead, ?_⟩⟩
  exact List.forall_mem_append.mpr ⟨hsegments, fun name hname => (hplace name hname).nameable⟩

end Path

/-! ### Trees -/

namespace FileTree

variable {t t' : FileTree} {entries : List (Text × FileTree)} {name : Text}
  {place place' : List Text}

/-- A file system can hold the tree: no directory has a name twice, and whatever stands in a
directory has a name under which it is found. -/
structure IsProper (t : FileTree) : Prop where
  distinct : ∀ place entries, t.at? place = some (directory entries) →
    (entries.map Prod.fst).Nodup
  named : ∀ place name, (t.at? (place ++ [name])).isSome = true → Path.IsName name

theorem at?_append : t.at? (place ++ place') = (t.at? place).bind (·.at? place') := by
  induction place generalizing t with
  | nil => simp
  | cons name place ih =>
    cases t with
    | file data => rfl
    | directory entries =>
      rw [List.cons_append, at?, at?, Option.bind_assoc]
      simp only [ih]

theorem at?_directory_cons : (directory entries).at? (name :: place) =
    (Table.lookup name entries).bind (·.at? place) := by
  rw [at?]

/-- Only in a directory something stands below the top. -/
theorem at?_cons_eq_some : t.at? (name :: place) = some t' ↔
    ∃ entries u, t = directory entries ∧ Table.lookup name entries = some u ∧
      u.at? place = some t' := by
  cases t with
  | file data => simp [at?]
  | directory entries => simp [at?, Option.bind_eq_some_iff]

theorem IsProper.at? (h : t.IsProper) (ht : t.at? place = some t') : t'.IsProper where
  distinct place' entries hentries := by
    refine h.distinct (place ++ place') entries ?_
    rw [at?_append, ht]
    exact hentries
  named place' name hname := by
    refine h.named (place ++ place') name ?_
    rw [List.append_assoc, at?_append, ht]
    exact hname

/-- All names on the way to what stands somewhere in a tree can be asked for. -/
theorem IsProper.isName (h : t.IsProper) (ht : t.at? place = some t') :
    ∀ name ∈ place, Path.IsName name := by
  intro name hname
  obtain ⟨way, rest, rfl⟩ := List.append_of_mem hname
  apply h.named way name
  -- something stands where the name has been followed, since the place goes on from there
  rw [List.append_cons, at?_append] at ht
  obtain ⟨u, hu, -⟩ := Option.bind_eq_some_iff.mp ht
  rw [hu]
  rfl

theorem isProper_file (data : ByteArray) : (file data).IsProper where
  distinct place entries h := by
    cases place <;> simp [FileTree.at?] at h
  named place name h := by
    cases place <;> simp [FileTree.at?] at h

/-- A directory is proper if its names are distinct and can be asked for, and its entries are
proper. -/
theorem isProper_directory (hdistinct : (entries.map Prod.fst).Nodup)
    (h : ∀ e ∈ entries, Path.IsName e.1 ∧ e.2.IsProper) : (directory entries).IsProper := by
  have hlookup : ∀ {name u}, Table.lookup name entries = some u →
      Path.IsName name ∧ u.IsProper := fun hu => h _ (Table.mem_of_lookup hu)
  constructor
  · intro place entries' hentries
    cases place with
    | nil =>
      rw [at?_nil] at hentries
      cases hentries
      exact hdistinct
    | cons name place =>
      rw [at?_directory_cons] at hentries
      obtain ⟨u, hu, hentries⟩ := Option.bind_eq_some_iff.mp hentries
      exact (hlookup hu).2.distinct place entries' hentries
  · intro place name hname
    cases place with
    | nil =>
      rw [List.nil_append, at?_directory_cons] at hname
      obtain ⟨u, hu⟩ := Option.isSome_iff_exists.mp (Option.isSome_of_isSome_bind hname)
      exact (hlookup hu).1
    | cons name' place =>
      rw [List.cons_append, at?_directory_cons] at hname
      cases hu : Table.lookup name' entries with
      | none =>
        rw [hu] at hname
        cases hname
      | some u =>
        rw [hu] at hname
        exact (hlookup hu).2.named place name hname

/-! ### The walk through a tree -/

@[simp] theorem places_file (data : ByteArray) : (file data).places = [] := by rw [places]

theorem places_directory (entries : List (Text × FileTree)) :
    (directory entries).places = entryPlaces entries := by rw [places]

theorem mem_entryPlaces : place ∈ entryPlaces entries ↔
    ∃ name u rest, (name, u) ∈ entries ∧ place = name :: rest ∧ (rest = [] ∨ rest ∈ u.places) := by
  induction entries with
  | nil => simp [entryPlaces]
  | cons e entries ih =>
    obtain ⟨name, u⟩ := e
    rw [entryPlaces, List.mem_append, List.mem_cons, List.mem_map, ih]
    constructor
    · rintro ((rfl | ⟨rest, hrest, rfl⟩) | ⟨name', u', rest, hmem, rfl, hrest⟩)
      · exact ⟨name, u, [], List.mem_cons_self, rfl, Or.inl rfl⟩
      · exact ⟨name, u, rest, List.mem_cons_self, rfl, Or.inr hrest⟩
      · exact ⟨name', u', rest, List.mem_cons_of_mem _ hmem, rfl, hrest⟩
    · rintro ⟨name', u', rest, hmem, rfl, hrest⟩
      rcases List.mem_cons.mp hmem with heq | hmem
      · cases heq
        rcases hrest with rfl | hrest
        · exact Or.inl (Or.inl rfl)
        · exact Or.inl (Or.inr ⟨rest, hrest, rfl⟩)
      · exact Or.inr ⟨name', u', rest, hmem, rfl, hrest⟩

/-- The walk through a tree meets every place below the top at which something stands. -/
theorem mem_places (h : t.IsProper) : place ∈ t.places ↔ place ≠ [] ∧ (t.at? place).isSome := by
  induction place generalizing t with
  | nil => cases t <;> simp [places, mem_entryPlaces]
  | cons name place ih =>
    cases t with
    | file data => simp [places, FileTree.at?]
    | directory entries =>
      have hentry : ∀ {u}, (name, u) ∈ entries ↔ Table.lookup name entries = some u :=
        (Table.lookup_eq_some_iff (h.distinct [] entries (at?_nil _))).symm
      -- an entry is met itself, and so is what the walk through it meets
      have hbelow : ∀ u, Table.lookup name entries = some u →
          ((place = [] ∨ place ∈ u.places) ↔ (u.at? place).isSome) := by
        intro u hu
        have hat : (directory entries).at? [name] = some u := by
          rw [at?_directory_cons, hu, Option.bind_some, at?_nil]
        rw [ih (h.at? hat)]
        cases place <;> simp
      rw [places, mem_entryPlaces, at?_directory_cons]
      constructor
      · rintro ⟨name', u, rest, hmem, heq, hrest⟩
        cases heq
        rw [hentry] at hmem
        refine ⟨List.cons_ne_nil _ _, ?_⟩
        rw [hmem]
        exact (hbelow u hmem).mp hrest
      · rintro ⟨-, hsome⟩
        cases hu : Table.lookup name entries with
        | none =>
          rw [hu] at hsome
          cases hsome
        | some u =>
          rw [hu] at hsome
          exact ⟨name, u, place, hentry.mpr hu, rfl, (hbelow u hu).mpr hsome⟩

theorem nil_not_mem_places (t : FileTree) : [] ∉ t.places := by
  cases t <;> simp [places_directory, mem_entryPlaces]

theorem nodup_entryPlaces (hnames : (entries.map Prod.fst).Nodup)
    (h : ∀ e ∈ entries, e.2.places.Nodup) : (entryPlaces entries).Nodup := by
  induction entries with
  | nil => simp [entryPlaces]
  | cons e entries ih =>
    obtain ⟨name, u⟩ := e
    rw [List.map_cons, List.nodup_cons] at hnames
    obtain ⟨hu, hrest⟩ := List.forall_mem_cons.mp h
    rw [entryPlaces, List.cons_append, List.nodup_cons, List.nodup_append]
    have hother : ∀ place, name :: place ∉ entryPlaces entries := by
      intro place hmem
      obtain ⟨name', u', rest, hmem, heq, -⟩ := mem_entryPlaces.mp hmem
      cases heq
      exact hnames.1 (List.mem_map.mpr ⟨_, hmem, rfl⟩)
    refine ⟨?_, hu.map List.cons_injective, ih hnames.2 hrest, ?_⟩
    · -- the entry itself is met neither below it nor in another one
      simp [nil_not_mem_places, hother]
    · rintro way hway way' hway' rfl
      obtain ⟨place, -, rfl⟩ := List.mem_map.mp hway
      exact hother place hway'

/-- No place is met twice. -/
theorem IsProper.nodup_places {t : FileTree} (h : t.IsProper) : t.places.Nodup :=
  match t, h with
  | file data, _ => by simp
  | directory entries, h => by
    have hnames := h.distinct [] entries (at?_nil _)
    rw [places_directory]
    refine nodup_entryPlaces hnames fun e hmem => ?_
    obtain ⟨name, u⟩ := e
    have hat : (directory entries).at? [name] = some u := by
      rw [at?_directory_cons, (Table.lookup_eq_some_iff hnames).mpr hmem, Option.bind_some, at?_nil]
    have hlt := List.sizeOf_lt_of_mem hmem
    exact (h.at? hat).nodup_places
termination_by sizeOf t
decreasing_by
  simp only [Prod.mk.sizeOf_spec] at hlt
  simp only [directory.sizeOf_spec]
  omega

end FileTree

/-! ### Following paths -/

namespace Storage

variable {s : Storage} {p : Path} {t t' : FileTree} {place place' names : List Text}

/-- The path leads to the tree, or would do so if it were not too long to be followed. -/
def Leads (s : Storage) (p : Path) (t : FileTree) : Prop :=
  ∃ place, s.follow (s.start p) p.segments = .ok place ∧ s.root.at? place = some t

theorem Leads.unique (h : s.Leads p t) (h' : s.Leads p t') : t = t' := by
  obtain ⟨place, hfollow, hat⟩ := h
  obtain ⟨place', hfollow', hat'⟩ := h'
  obtain rfl : place = place' := Except.ok.inj (hfollow.symm.trans hfollow')
  exact Option.some.inj (hat.symm.trans hat')

theorem follow_append (segments segments' : List Text) :
    s.follow place (segments ++ segments') =
      (s.follow place segments).bind (s.follow · segments') := by
  induction segments generalizing place with
  | nil => rfl
  | cons segment segments ih =>
    rw [List.cons_append, follow, follow]
    split
    · rfl
    · rfl
    · simp only [ih]
      split
      · rfl
      · split
        · rfl
        · split <;> rfl

/-- Names that lead somewhere are followed one after the other. -/
theorem follow_eq_append (hroot : s.root.IsProper) (h : s.root.at? (place ++ names) = some t) :
    s.follow place names = .ok (place ++ names) := by
  induction names generalizing place with
  | nil => rw [follow, List.append_nil]
  | cons name names ih =>
    have hname : Path.IsName name :=
      hroot.isName h name (List.mem_append_right _ List.mem_cons_self)
    -- none of the segments that are not looked up is a name
    have hup : ¬(name == "..") = true := by simpa using hname.notUp
    have hrest : s.root.at? (place ++ [name] ++ names) = some t := by
      rwa [List.append_assoc]
    rw [FileTree.at?_append] at h
    obtain ⟨u, hu, hbelow⟩ := Option.bind_eq_some_iff.mp h
    obtain ⟨entries, v, rfl, hv, -⟩ := FileTree.at?_cons_eq_some.mp hbelow
    rw [follow, hu]
    simp only [hname.notLong, hv, Option.isSome_some, if_neg hup, if_true, Bool.false_eq_true,
      if_false]
    rw [ih hrest, List.append_assoc, List.singleton_append]

/-- A path below what another path leads to leads to what stands there. -/
theorem Leads.below (hroot : s.root.IsProper) (h : s.Leads p t) (ht : t.at? place = some t') :
    s.Leads (p.below place) t' := by
  obtain ⟨top, hfollow, hat⟩ := h
  have hplace : s.root.at? (top ++ place) = some t' := by
    rw [FileTree.at?_append, hat]
    exact ht
  refine ⟨top ++ place, ?_, hplace⟩
  change s.follow (s.start p) (p.segments ++ place) = _
  rw [follow_append, hfollow]
  exact follow_eq_append hroot hplace

/-- What is found at the end of a path is what the path leads to, if the path can be asked for and
followed. -/
theorem find?_eq_some_iff : s.find? p = .ok (some t) ↔
    p.checkedText = .ok p.toText ∧ p.isLong = false ∧ s.Leads p t := by
  unfold find? Leads
  cases hcheck : p.checkedText with
  | error fault => simp
  | ok text =>
    obtain ⟨rfl, -⟩ := Path.checkedText_eq_ok_iff.mp hcheck
    rw [locate]
    cases p.isLong with
    | true => simp
    | false => cases hfollow : s.follow (s.start p) p.segments with
      | ok place => simp
      | error fault => cases fault <;> simp

/-- At the end of a path a file is read, and a directory is not. -/
theorem read_of_find? (h : s.find? p = .ok (some t)) : s.read p =
    match t with
    | .file data => .ok data
    | .directory _ => .error (.file .isDirectory p.toText) := by
  obtain ⟨hcheck, hlong, place, hfollow, hat⟩ := find?_eq_some_iff.mp h
  have hlocate : s.locate p = .ok place := by
    rw [locate, hlong]
    exact hfollow
  have hdata : s.dataAt p = match t with
      | .file data => .ok data
      | .directory _ => .error .isDirectory := by
    simp only [dataAt, hlocate, bind, Except.bind, hat]
    cases t <;> rfl
  rw [read, hdata, onPath, hcheck]
  cases t <;> rfl

end Storage

end DocLineage
