import DocLineage.Files.Dump
import DocLineage.Proofs.Indexing
import DocLineage.Proofs.Places

/-!
# Which dumps some inputs stand for

A file stands for itself, whatever its name. A directory stands for everything below it whose name
ends like that of a dump, in the order of paths. Nothing asks whether what has such a name is a
file: a directory that is named like a dump is taken for one, and cannot be read. So what is
collected can be read exactly if no directory below an input has such a name; and no file that has
one is left out.

## Main definitions

* `Storage.HasBelow` — what stands at a path below a directory
* `Dump.StandsFor` — the paths that one input stands for

## Main results

* `Dump.standsFor_of_matching`, `Dump.forall₂_standsFor` — what is collected for one input, and for
  one input after the other
* `Dump.mem_collect_iff`, `Dump.leads_of_mem_collect` — what is collected, and what it leads to
* `Dump.forall_file_iff` — when all that is collected are files
* `Dump.collect_spec` — all of this in one statement
-/

namespace DocLineage

namespace Path

variable {p q r : Path} {ps : List Path}

/-- What paths are ordered by. -/
def parts (p : Path) : List Text := p.lead :: p.segments

theorem parts_inj (h : p.parts = q.parts) : p = q := by
  cases p
  cases q
  cases h
  rfl

theorem lt_iff : p.lt q = true ↔ p.parts < q.parts := decide_eq_true_iff

theorem not_lt_iff : (!q.lt p) = true ↔ p.parts ≤ q.parts := by
  rw [Bool.not_eq_true', ← Bool.not_eq_true, lt_iff]
  exact List.not_lt

/-- Sorting puts distinct paths in ascending order. -/
theorem pairwise_mergeSort (h : ps.Nodup) :
    (ps.mergeSort fun p q => !q.lt p).Pairwise fun p q => p.lt q = true := by
  have hsorted : (ps.mergeSort fun p q => !q.lt p).Pairwise fun p q => (!q.lt p) = true := by
    apply List.pairwise_mergeSort
    · intro p q r hpq hqr
      exact not_lt_iff.mpr (List.le_trans (not_lt_iff.mp hpq) (not_lt_iff.mp hqr))
    · intro p q
      rw [Bool.or_eq_true, not_lt_iff, not_lt_iff]
      exact List.le_total p.parts q.parts
  have hnodup : (ps.mergeSort fun p q => !q.lt p).Nodup :=
    (List.mergeSort_perm ps _).nodup_iff.mpr h
  -- neighbours that are not the other way round are ascending, since no two paths are the same
  refine hsorted.imp₂ (fun p q hle hne => ?_) hnodup
  exact lt_iff.mpr (Std.lt_of_le_of_ne (not_lt_iff.mp hle) fun heq => hne (parts_inj heq))

theorem below_injective (p : Path) : Function.Injective p.below := by
  intro place place' h
  exact List.append_cancel_left (congrArg Path.segments h)

end Path

namespace Storage

variable {s : Storage} {input p : Path} {t : FileTree}

/-- Below the directory that one path leads to, the tree stands at another path. -/
def HasBelow (s : Storage) (input p : Path) (t : FileTree) : Prop :=
  ∃ top place, s.find? input = .ok (some top) ∧ place ≠ [] ∧ top.at? place = some t ∧
    p = input.below place

theorem HasBelow.leads (hroot : s.root.IsProper) (h : s.HasBelow input p t) : s.Leads p t := by
  obtain ⟨top, place, htop, -, hat, rfl⟩ := h
  exact (find?_eq_some_iff.mp htop).2.2.below hroot hat

/-- What stands below a directory is found at its path, unless the path is too long. -/
theorem HasBelow.find? (hroot : s.root.IsProper) (h : s.HasBelow input p t)
    (hlong : p.isLong = false) : s.find? p = .ok (some t) := by
  refine find?_eq_some_iff.mpr ⟨?_, hlong, h.leads hroot⟩
  obtain ⟨top, place, htop, -, hat, rfl⟩ := h
  obtain ⟨hcheck, -, _, -, hproper⟩ := find?_eq_some_iff.mp htop
  exact Path.checkedText_below hcheck ((hroot.at? hproper).isName hat)

/-- A file has nothing below it. -/
theorem HasBelow.isDirectory (h : s.HasBelow input p t) :
    ∃ entries, s.find? input = .ok (some (.directory entries)) := by
  obtain ⟨top, place, htop, hne, hat, -⟩ := h
  obtain ⟨name, place, rfl⟩ := List.exists_cons_of_ne_nil hne
  obtain ⟨entries, -, rfl, -⟩ := FileTree.at?_cons_eq_some.mp hat
  exact ⟨entries, htop⟩

end Storage

namespace Dump

variable {s : Storage} {input p : Path} {inputs files : List Path}

/-- The input stands for the paths: itself if it is a file, and if it is a directory everything
below that is named like a dump, in ascending order. -/
inductive StandsFor (s : Storage) (input : Path) : List Path → Prop
  | file {data : ByteArray} (h : s.find? input = .ok (some (.file data))) :
    StandsFor s input [input]
  | nothing (h : s.find? input = .ok none) : StandsFor s input []
  | directory {entries : List (Text × FileTree)} {files : List Path}
    (h : s.find? input = .ok (some (.directory entries)))
    (sorted : files.Pairwise fun p q => p.lt q = true)
    (mem_iff : ∀ p, p ∈ files ↔ (∃ t, s.HasBelow input p t) ∧ isNamed p = true) :
    StandsFor s input files

/-- What is collected for an input depends on what is found there alone. -/
theorem matching_eq (s : Storage) (input : Path) :
    matching s input = (s.find? input).map fun
      | none => []
      | some (.file _) => [input]
      | some (.directory entries) =>
        (((FileTree.directory entries).places.map input.below).filter isNamed).mergeSort
          fun p q => !q.lt p := by
  simp only [matching, Storage.isDirectory, Storage.isFile, Storage.below, bind, Except.bind]
  cases hfound : s.find? input with
  | error fault => rfl
  | ok found =>
    rcases found with _ | (data | entries) <;> rfl

/-- An input for which something is collected stands for it. -/
theorem standsFor_of_matching (hroot : s.root.IsProper) (h : matching s input = .ok files) :
    StandsFor s input files := by
  rw [matching_eq] at h
  cases hfound : s.find? input with
  | error fault =>
    rw [hfound] at h
    cases h
  | ok found =>
    rw [hfound] at h
    obtain rfl := Except.ok.inj h
    rcases found with _ | (data | entries)
    · exact .nothing hfound
    · exact .file hfound
    · obtain ⟨-, -, top, -, hat⟩ := Storage.find?_eq_some_iff.mp hfound
      have hproper : (FileTree.directory entries).IsProper := hroot.at? hat
      refine .directory hfound (Path.pairwise_mergeSort ?_) fun p => ?_
      · exact (hproper.nodup_places.map input.below_injective).filter _
      · -- what the walk meets is what stands below the directory
        rw [List.mem_mergeSort, List.mem_filter, List.mem_map]
        refine and_congr_left fun _ => ?_
        simp only [FileTree.mem_places hproper, Option.isSome_iff_exists]
        constructor
        · rintro ⟨place, ⟨hne, t, hat⟩, rfl⟩
          exact ⟨t, _, place, hfound, hne, hat, rfl⟩
        · rintro ⟨t, top, place, htop, hne, hat, rfl⟩
          obtain rfl := Option.some.inj (Except.ok.inj (hfound.symm.trans htop))
          exact ⟨place, ⟨hne, t, hat⟩, rfl⟩

theorem collect_cons (s : Storage) (input : Path) (inputs : List Path) :
    collect s (input :: inputs) = do
      let files ← matching s input
      let rest ← collect s inputs
      return files ++ rest := by
  unfold collect
  rw [List.mapM_cons]
  cases matching s input with
  | error fault => rfl
  | ok files => cases inputs.mapM (matching s) <;> rfl

theorem exists_matching_iff :
    (∃ files, matching s input = .ok files) ↔ ∃ found, s.find? input = .ok found := by
  rw [matching_eq]
  cases s.find? input <;> simp [Except.map]

/-- Something is collected exactly if the file system can answer what each input is. -/
theorem exists_collect_iff : (∃ files, collect s inputs = .ok files) ↔
    ∀ input ∈ inputs, ∃ found, s.find? input = .ok found := by
  induction inputs with
  | nil => simp
  | cons input inputs ih =>
    rw [List.forall_mem_cons, ← ih, ← exists_matching_iff, collect_cons]
    constructor
    · rintro ⟨files, h⟩
      obtain ⟨first, hfirst, h⟩ := Doclet.bind_eq_ok_iff.mp h
      obtain ⟨rest, hrest, -⟩ := Doclet.bind_eq_ok_iff.mp h
      exact ⟨⟨first, hfirst⟩, rest, hrest⟩
    · rintro ⟨⟨first, hfirst⟩, rest, hrest⟩
      exact ⟨first ++ rest, by rw [hfirst, hrest]; rfl⟩

/-- What is collected is what one input after the other stands for. -/
theorem forall₂_standsFor (hroot : s.root.IsProper) (h : collect s inputs = .ok files) :
    ∃ parts, List.Forall₂ (StandsFor s) inputs parts ∧ files = parts.flatten := by
  induction inputs generalizing files with
  | nil =>
    cases h
    exact ⟨[], .nil, rfl⟩
  | cons input inputs ih =>
    rw [collect_cons] at h
    obtain ⟨first, hfirst, h⟩ := Doclet.bind_eq_ok_iff.mp h
    obtain ⟨rest, hrest, h⟩ := Doclet.bind_eq_ok_iff.mp h
    cases h
    obtain ⟨parts, hparts, rfl⟩ := ih hrest
    exact ⟨first :: parts, .cons (standsFor_of_matching hroot hfirst) hparts, rfl⟩

/-- A path for which an input stands is the input itself, if that is a file, or leads below it and
is named like that of a dump. -/
theorem StandsFor.mem_files_iff (h : StandsFor s input files) : p ∈ files ↔
    (p = input ∧ ∃ data, s.find? input = .ok (some (.file data))) ∨
      (∃ t, s.HasBelow input p t) ∧ isNamed p = true := by
  cases h with
  | file hfile =>
    rw [List.mem_singleton]
    constructor
    · rintro rfl
      exact Or.inl ⟨rfl, _, hfile⟩
    · rintro (⟨rfl, -⟩ | ⟨⟨t, hbelow⟩, -⟩)
      · rfl
      · obtain ⟨entries, hdirectory⟩ := hbelow.isDirectory
        cases hfile.symm.trans hdirectory
  | nothing hnone =>
    refine iff_of_false List.not_mem_nil ?_
    rintro (⟨-, data, hfile⟩ | ⟨⟨t, hbelow⟩, -⟩)
    · cases hnone.symm.trans hfile
    · obtain ⟨entries, hdirectory⟩ := hbelow.isDirectory
      cases hnone.symm.trans hdirectory
  | directory hdirectory _ hmem =>
    rw [hmem]
    refine ⟨Or.inr, ?_⟩
    rintro (⟨-, data, hfile⟩ | hbelow)
    · cases hdirectory.symm.trans hfile
    · exact hbelow

theorem mem_collect_iff (hroot : s.root.IsProper) (h : collect s inputs = .ok files) :
    p ∈ files ↔ ∃ input ∈ inputs, (p = input ∧ ∃ data, s.find? input = .ok (some (.file data))) ∨
      (∃ t, s.HasBelow input p t) ∧ isNamed p = true := by
  obtain ⟨parts, hparts, rfl⟩ := forall₂_standsFor hroot h
  clear h
  induction hparts with
  | nil => simp
  | cons hfirst _ ih =>
    rw [List.flatten_cons, List.mem_append, hfirst.mem_files_iff, ih]
    simp

/-- Whatever is collected is a file, which can be read, or a directory below an input. -/
theorem leads_of_mem_collect (hroot : s.root.IsProper) (h : collect s inputs = .ok files)
    (hp : p ∈ files) :
    (∃ data, s.Leads p (.file data) ∧ (p.isLong = false → s.read p = .ok data)) ∨
      ∃ entries, s.Leads p (.directory entries) ∧
        (∃ input ∈ inputs, s.HasBelow input p (.directory entries)) ∧ isNamed p = true ∧
        (p.isLong = false → s.read p = .error (.file .isDirectory p.toText)) := by
  obtain ⟨input, hinput, ⟨rfl, data, hfile⟩ | ⟨⟨t, hbelow⟩, hnamed⟩⟩ :=
    (mem_collect_iff hroot h).mp hp
  · exact Or.inl ⟨data, (Storage.find?_eq_some_iff.mp hfile).2.2,
      fun _ => Storage.read_of_find? hfile⟩
  · -- nobody has asked whether this one is a file
    have hread := fun hlong => Storage.read_of_find? (hbelow.find? hroot hlong)
    cases t with
    | file data => exact Or.inl ⟨data, hbelow.leads hroot, hread⟩
    | directory entries =>
      exact Or.inr ⟨entries, hbelow.leads hroot, ⟨input, hinput, hbelow⟩, hnamed, hread⟩

/-- All that is collected are files exactly if no directory below an input is named like a dump. -/
theorem forall_file_iff (hroot : s.root.IsProper) (h : collect s inputs = .ok files) :
    (∀ p ∈ files, ∃ data, s.Leads p (.file data)) ↔
      ∀ input ∈ inputs, ∀ p entries, s.HasBelow input p (.directory entries) →
        isNamed p = false := by
  constructor
  · intro hall input hinput p entries hbelow
    by_contra hnamed
    rw [Bool.not_eq_false] at hnamed
    -- the directory would be collected, and its path leads to nothing else
    obtain ⟨data, hfile⟩ :=
      hall p ((mem_collect_iff hroot h).mpr ⟨input, hinput, Or.inr ⟨⟨_, hbelow⟩, hnamed⟩⟩)
    cases (hbelow.leads hroot).unique hfile
  · intro hnone p hp
    rcases leads_of_mem_collect hroot h hp with
      ⟨data, hfile, -⟩ | ⟨entries, -, ⟨input, hinput, hbelow⟩, hnamed, -⟩
    · exact ⟨data, hfile⟩
    · rw [hnone input hinput p entries hbelow] at hnamed
      cases hnamed

/-- What is collected if the file system can answer what each input is: for one input after the
other the input itself, or what is below it and named like a dump, in ascending order. No file that
has such a name is left out. Whatever is collected can be read if it is a file; and all of it are
files exactly if no directory below an input is named like a dump. -/
theorem collect_spec (hroot : s.root.IsProper) (inputs : List Path) :
    ((∃ files, collect s inputs = .ok files) ↔
      ∀ input ∈ inputs, ∃ found, s.find? input = .ok found) ∧
    ∀ files, collect s inputs = .ok files →
      (∃ parts, List.Forall₂ (StandsFor s) inputs parts ∧ files = parts.flatten) ∧
      (∀ input ∈ inputs, ∀ p data, s.HasBelow input p (.file data) → isNamed p = true →
        p ∈ files) ∧
      (∀ p ∈ files,
        (∃ data, s.Leads p (.file data) ∧ (p.isLong = false → s.read p = .ok data)) ∨
          ∃ entries, s.Leads p (.directory entries) ∧
            (∃ input ∈ inputs, s.HasBelow input p (.directory entries)) ∧ isNamed p = true ∧
            (p.isLong = false → s.read p = .error (.file .isDirectory p.toText))) ∧
      ((∀ p ∈ files, ∃ data, s.Leads p (.file data)) ↔
        ∀ input ∈ inputs, ∀ p entries, s.HasBelow input p (.directory entries) →
          isNamed p = false) := by
  refine ⟨exists_collect_iff, fun files h => ⟨forall₂_standsFor hroot h, ?_, ?_, ?_⟩⟩
  · intro input hinput p data hbelow hnamed
    exact (mem_collect_iff hroot h).mpr ⟨input, hinput, Or.inr ⟨⟨_, hbelow⟩, hnamed⟩⟩
  · exact fun p hp => leads_of_mem_collect hroot h hp
  · exact forall_file_iff hroot h

/-- A directory with a dump in it, and with a directory that is named like one. -/
def archived : Storage :=
  { root := .directory [("d", .directory [("old.Json", .directory [("b.yml", .file ⟨#[]⟩)]),
      ("a.json", .file ⟨#[]⟩), ("notes", .file ⟨#[]⟩)])] }

theorem isProper_archived : archived.root.IsProper := by
  have hfile := FileTree.isProper_file ⟨#[]⟩
  have hold : (FileTree.directory [("b.yml", .file ⟨#[]⟩)]).IsProper :=
    FileTree.isProper_directory (by decide) (List.forall_mem_singleton.mpr ⟨by decide, hfile⟩)
  refine FileTree.isProper_directory (by decide)
    (List.forall_mem_singleton.mpr ⟨by decide, FileTree.isProper_directory (by decide) ?_⟩)
  simp only [List.forall_mem_cons]
  exact ⟨⟨by decide, hold⟩, ⟨by decide, hfile⟩, ⟨by decide, hfile⟩, by simp⟩

theorem find?_archived : archived.find? ⟨[], ["d"]⟩ = .ok (archived.root.at? ["d"]) := rfl

theorem hasBelow_archived : archived.HasBelow ⟨[], ["d"]⟩ ⟨[], ["d", "old.Json"]⟩
    (.directory [("b.yml", .file ⟨#[]⟩)]) :=
  ⟨_, ["old.Json"], find?_archived, by simp, rfl, rfl⟩

theorem isNamed_archived : isNamed ⟨[], ["d", "old.Json"]⟩ = true := rfl

/-- The dump in the inner directory is found, but that directory is taken for a dump as well. -/
theorem collect_spec_archived : archived.root.IsProper ∧
    ∃ files, collect archived [⟨[], ["d"]⟩, ⟨[], ["d", "notes"]⟩] = .ok files ∧
      ⟨[], ["d", "old.Json", "b.yml"]⟩ ∈ files ∧
      ¬∀ p ∈ files, ∃ data, archived.Leads p (.file data) := by
  obtain ⟨hexists, hall⟩ :=
    collect_spec isProper_archived [⟨[], ["d"]⟩, ⟨[], ["d", "notes"]⟩]
  obtain ⟨files, hfiles⟩ := hexists.mpr
    (List.forall_mem_cons.mpr ⟨⟨_, find?_archived⟩, List.forall_mem_singleton.mpr ⟨_, rfl⟩⟩)
  obtain ⟨-, hcomplete, -, hiff⟩ := hall files hfiles
  refine ⟨isProper_archived, files, hfiles, ?_, fun hfile => ?_⟩
  · exact hcomplete _ List.mem_cons_self _ ⟨#[]⟩
      ⟨_, ["old.Json", "b.yml"], find?_archived, by simp, rfl, rfl⟩ rfl
  · have hnot := hiff.mp hfile _ List.mem_cons_self _ _ hasBelow_archived
    cases isNamed_archived.symm.trans hnot

/-- Not everything that is collected is a file. -/
theorem not_collect_spec : ¬∀ (s : Storage) (inputs files : List Path), s.root.IsProper →
    collect s inputs = .ok files → ∀ p ∈ files, ∃ data, s.Leads p (.file data) := by
  intro hall
  obtain ⟨files, hfiles⟩ := exists_collect_iff.mpr
    (List.forall_mem_singleton.mpr ⟨_, find?_archived⟩)
  have hmem := (mem_collect_iff isProper_archived hfiles).mpr
    ⟨_, List.mem_cons_self, Or.inr ⟨⟨_, hasBelow_archived⟩, isNamed_archived⟩⟩
  obtain ⟨data, hfile⟩ := hall archived _ files isProper_archived hfiles _ hmem
  cases (hasBelow_archived.leads isProper_archived).unique hfile

end Dump

end DocLineage
