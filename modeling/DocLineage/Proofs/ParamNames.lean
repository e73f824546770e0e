import DocLineage.Proofs.Frozen
import DocLineage.Proofs.Signature
import Mathlib

/-!
# The parameters of a doclet, by name

A merge lists every name of the signature, whatever the ancestor documents, unless the ancestor has
no parameters at all. So the names that a doclet lists do not depend on which ancestors it has
inherited from, nor on their order, but only on whether any of them had parameters: the names that
it was loaded with come first, and then the names of its signature that were missing, each of them
once.

## Main definitions

* `Param.missing` — the names of a signature that a list of names lacks, each once
* `Param.extend` — a list of names with those that it lacks

## Main results

* `Param.map_name_fill` — the names after the slots of a signature are filled
* `Doclet.map_name_replay_of_exists`, `Doclet.map_name_replay_of_forall` — the names after merges
* `Stage.Shows.replayed` — every state that a run shows is the outcome of the merges so far
* `Resolution.names_params_of_loaded` — the names in every state that a run shows
-/

namespace DocLineage

/-! ### Filling a signature -/

/-- A list without its repetitions has none left. -/
theorem nodup_eraseDups {α : Type} [BEq α] [LawfulBEq α] (l : List α) : l.eraseDups.Nodup := by
  induction hn : l.length using Nat.strong_induction_on generalizing l with
  | h n ih =>
    subst hn
    cases l with
    | nil => simp
    | cons a l =>
      rw [List.eraseDups_cons, List.nodup_cons, List.mem_eraseDups]
      refine ⟨by simp, ih _ ?_ _ rfl⟩
      exact Nat.lt_succ_of_le (List.length_filter_le _ _)

namespace Param

open Doclet (findParam?)

/-- The names of a signature that are not among some names, each once, in the order in which the
signature first mentions them. -/
def missing (names signature : List Text) : List Text :=
  (signature.filter fun n => n ∉ names).eraseDups

/-- Some names, followed by those of a signature that are not among them. -/
def extend (names signature : List Text) : List Text := names ++ missing names signature

variable {own ancestor params : List Param} {name : Text} {entry : Param} {placeholder : Value}
  {names signature : List Text}

theorem mem_missing : name ∈ missing names signature ↔ name ∈ signature ∧ name ∉ names := by
  rw [missing, List.mem_eraseDups, List.mem_filter, decide_eq_true_eq]

theorem mem_extend_of_mem (h : name ∈ signature) : name ∈ extend names signature := by
  rw [extend, List.mem_append, mem_missing]
  by_cases hown : name ∈ names
  · exact Or.inl hown
  · exact Or.inr ⟨h, hown⟩

theorem nodup_extend (h : names.Nodup) : (extend names signature).Nodup := by
  rw [extend, List.nodup_append]
  refine ⟨h, nodup_eraseDups _, ?_⟩
  rintro n hn _ hmissing rfl
  exact (mem_missing.mp hmissing).2 hn

/-- Names that have been extended by a signature lack none of it. -/
theorem extend_extend : extend (extend names signature) signature = extend names signature := by
  have hnone : missing (extend names signature) signature = [] := by
    rw [List.eq_nil_iff_forall_not_mem]
    intro n hn
    obtain ⟨hmem, hnot⟩ := mem_missing.mp hn
    exact hnot (mem_extend_of_mem hmem)
  rw [extend, hnone, List.append_nil]

theorem extend_nil : extend names [] = names :=
  List.append_nil names

/-- The first name of a signature is added, unless it is there; and then the rest. -/
theorem extend_cons : extend names (name :: signature) =
    extend (if name ∈ names then names else names ++ [name]) signature := by
  unfold extend missing
  by_cases h : name ∈ names
  · rw [if_pos h, List.filter_cons_of_neg (by simpa using h)]
  · rw [if_neg h, List.filter_cons_of_pos (by simpa using h), List.eraseDups_cons,
      List.append_assoc, List.singleton_append, List.filter_filter]
    congr 3
    apply List.filter_congr
    intro n _
    by_cases hn : n = name <;> simp [hn]

theorem findParam?_eq_none_iff : findParam? params name = none ↔ name ∉ params.map Param.name := by
  unfold findParam?
  rw [List.find?_eq_none, List.mem_map]
  simp

theorem map_name_replace (h : entry.name = name) :
    (replace name entry params).map Param.name = params.map Param.name := by
  induction params with
  | nil => rfl
  | cons p ps ih =>
    rw [replace]
    split
    · next hp =>
      have hp : p.name = name := beq_iff_eq.mp hp
      rw [List.map_cons, List.map_cons, h, hp]
    · rw [List.map_cons, List.map_cons, ih]

/-- A slot lists its name, unless it is listed already. -/
theorem map_name_slot : (slot ancestor placeholder own name).map Param.name =
    if name ∈ own.map Param.name then own.map Param.name else own.map Param.name ++ [name] := by
  unfold slot
  cases hown : findParam? own name with
  | none =>
    rw [if_neg (findParam?_eq_none_iff.mp hown)]
    cases hancestor : findParam? ancestor name with
    | none => rw [List.map_append]; rfl
    | some inherited =>
      rw [List.map_append, List.map_singleton, name_of_findParam? hancestor]
  | some p =>
    have hmem : name ∈ own.map Param.name := by
      by_contra hnot
      rw [findParam?_eq_none_iff.mpr hnot] at hown
      cases hown
    rw [if_pos hmem]
    cases hancestor : findParam? ancestor name with
    | none => rfl
    | some inherited =>
      dsimp only
      split
      · exact map_name_replace (name_of_findParam? hancestor)
      · rfl

theorem map_name_foldl_slot : (signature.foldl (slot ancestor placeholder) own).map Param.name =
    extend (own.map Param.name) signature := by
  induction signature generalizing own with
  | nil => exact extend_nil.symm
  | cons n ns ih => rw [List.foldl_cons, ih, map_name_slot, extend_cons]

/-- An ancestor with any parameters makes a doclet list its whole signature, and another one
changes no name. -/
theorem map_name_fill : (fill ancestor placeholder signature own).map Param.name =
    if ancestor = [] then own.map Param.name else extend (own.map Param.name) signature := by
  unfold fill
  by_cases h : ancestor = []
  · simp [h]
  · rw [if_neg (by simpa using h), if_neg h, map_name_foldl_slot]

end Param

/-! ### Many merges -/

namespace Doclet

variable {d : Doclet} {placeholder : Value} {read : DocletId → Doclet} {ms : List Merge}

@[simp] theorem paramNames_replay : (d.replay placeholder read ms).paramNames = d.paramNames :=
  replay_preserves Doclet.paramNames paramNames_inherit

/-- Merges of ancestors without parameters change no name. -/
theorem map_name_replay_of_forall (h : ∀ m ∈ ms, (read m.ancestor).params = []) :
    (d.replay placeholder read ms).params.map Param.name = d.params.map Param.name := by
  induction ms generalizing d with
  | nil => rfl
  | cons m ms ih =>
    rw [replay, List.foldl_cons, ← replay, ih fun m' hm' => h m' (List.mem_cons_of_mem m hm'),
      params_inherit, Param.map_name_fill, if_pos (h m List.mem_cons_self)]

/-- As soon as one of the merged ancestors has parameters, a doclet lists its whole signature. -/
theorem map_name_replay_of_exists (h : ∃ m ∈ ms, (read m.ancestor).params ≠ []) :
    (d.replay placeholder read ms).params.map Param.name =
      Param.extend (d.params.map Param.name) d.paramNames := by
  induction ms generalizing d with
  | nil =>
    obtain ⟨m, hm, -⟩ := h
    cases hm
  | cons m ms ih =>
    rw [replay, List.foldl_cons, ← replay]
    by_cases hrest : ∃ m ∈ ms, (read m.ancestor).params ≠ []
    · -- what comes later finds the signature listed, if the first ancestor has parameters
      rw [ih hrest, params_inherit, Param.map_name_fill, paramNames_inherit]
      split
      · rfl
      · exact Param.extend_extend
    · have hnone : ∀ m' ∈ ms, (read m'.ancestor).params = [] := by
        simpa using hrest
      obtain ⟨m', hm', hne⟩ := h
      have hfirst : (read m.ancestor).params ≠ [] := by
        rcases List.mem_cons.mp hm' with rfl | hm'
        · exact hne
        · exact absurd (hnone m' hm') hne
      rw [map_name_replay_of_forall hnone, params_inherit, Param.map_name_fill, if_neg hfirst]

end Doclet

/-! ### Every state of a run -/

namespace Stage

variable {settings : Settings} {r₀ r : Run} {m : Stage} {a : Arrival} {ps : List Pass}
  {id : DocletId} {g : Merge}

/-- What has been merged by then is read as it is at the stage. -/
theorem Shows.doclet_of_mem_mergesInto (hm : m.Occurs settings r₀) (hshows : m.Shows settings ps r)
    (hg : g ∈ mergesInto ps id) : r.doclet g.ancestor = m.run.doclet g.ancestor := by
  have hbefore : ∀ g ∈ mergesInto m.passes id, r.doclet g.ancestor = m.run.doclet g.ancestor := by
    intro g hg
    obtain ⟨harrived, -, -, hnil⟩ := hm.replays.of_mem_mergesInto hg
    obtain ⟨a, ha, heq⟩ := List.mem_map.mp harrived
    rw [← heq] at hnil ⊢
    exact hshows.doclet_of_complete ha hnil
  cases hshows with
  | now => rfl
  | failed _ _ _ _ => exact hbefore g hg
  | @partway b n hbusy =>
    rw [mergesInto_append_singleton] at hg
    rcases List.mem_append.mp hg with hg | hg
    · exact hbefore g hg
    · split at hg
      · obtain ⟨a, -, heq, hnil⟩ := hm.of_get?_completed (Registry.mem_mergesOf.mp hg).2
        rw [← heq]
        exact Run.doclet_partway_of_complete hnil
      · cases hg

/-- Every doclet that has arrived is, in every state that a run shows, the outcome of the merges so
far. -/
theorem Shows.replayed (hm : m.Occurs settings r₀) (hshows : m.Shows settings ps r)
    (ha : a ∈ m.arrivals) : r.doclet a.id =
      { a.declared.replay settings.placeholder r.doclet (mergesInto ps a.id) with
        pending := (r.doclet a.id).pending } := by
  have hread : ∀ g ∈ mergesInto ps a.id, r.doclet g.ancestor = m.run.doclet g.ancestor :=
    fun _ hg => hshows.doclet_of_mem_mergesInto hm hg
  rw [Doclet.replay_congr hread]
  have hnow := hm.replays.replayed a ha
  cases hshows with
  | now => exact hnow
  | failed _ _ hid hdeclared =>
    rw [Run.doclet_of_declareAncestors hdeclared hid (List.mem_map_of_mem ha)]
    exact hnow
  | @partway b n hbusy =>
    rw [mergesInto_append_singleton, Run.doclet_partialPass]
    by_cases hb : b = a.id
    · subst hb
      have hlinked := hm.linked
      rw [hbusy] at hlinked
      rw [if_pos rfl, Doclet.replay_append, hlinked.doclet_partway_self, Doclet.pending_replay]
      -- what was pending on the doclet makes no difference to what is merged
      conv_lhs => rw [hnow]
      rw [Doclet.replay_setPending]
    · rw [if_neg hb, List.append_nil, Run.doclet_partway_of_ne (Ne.symm hb)]
      exact hnow

/-- Nothing has been merged in a doclet that has not arrived, and its parameters are untouched. -/
theorem Shows.of_not_arrived (hm : m.Occurs settings r₀) (hshows : m.Shows settings ps r)
    (hid : id ∉ m.arrivals.map Arrival.id) :
    mergesInto ps id = [] ∧ (r.doclet id).params = (r₀.doclet id).params := by
  have hnil := hm.replays.mergesInto_eq_nil hid
  have hsame : m.run.doclet id = r₀.doclet id := Execution.doclet_of_not_arrived hm hid
  rw [← hsame]
  cases hshows with
  | now => exact ⟨hnil, rfl⟩
  | @failed x _ _ _ _ _ hdeclared =>
    refine ⟨hnil, ?_⟩
    have hdeclares := Run.declares_of_declareAncestors hdeclared
    by_cases hx : id = x
    · subst hx
      obtain ⟨entries, hentries⟩ := hdeclares.doclet_self
      exact hentries.params
    · rw [hdeclares.doclet_of_ne id hx]
  | @partway b n hbusy =>
    have hb : b ≠ id := by
      rintro rfl
      exact hid (hm.linked.arrived b hbusy)
    rw [mergesInto_append_singleton, Run.doclet_partialPass, if_neg hb, List.append_nil,
      Run.doclet_partway_of_ne (Ne.symm hb)]
    exact ⟨hnil, rfl⟩

/-- In every state that a run shows, a doclet lists the names that it was loaded with, followed by
the missing names of its signature if an ancestor with parameters has been merged. -/
theorem Shows.map_name_params (hm : m.Occurs settings r₀) (hshows : m.Shows settings ps r)
    (id : DocletId) :
    ((∃ g ∈ mergesInto ps id, (r.doclet g.ancestor).params ≠ []) →
      (r.doclet id).params.map Param.name =
        Param.extend ((r₀.doclet id).params.map Param.name) (r₀.doclet id).paramNames) ∧
    ((∀ g ∈ mergesInto ps id, (r.doclet g.ancestor).params = []) →
      (r.doclet id).params.map Param.name = (r₀.doclet id).params.map Param.name) := by
  by_cases hid : id ∈ m.arrivals.map Arrival.id
  · obtain ⟨a, ha, rfl⟩ := List.mem_map.mp hid
    have hdeclares := (hm.declares a ha).2
    have hparams : (r.doclet a.id).params =
        (a.declared.replay settings.placeholder r.doclet (mergesInto ps a.id)).params := by
      conv_lhs => rw [hshows.replayed hm ha]
    rw [hparams, ← hdeclares.params, ← hdeclares.paramNames]
    exact ⟨Doclet.map_name_replay_of_exists, Doclet.map_name_replay_of_forall⟩
  · obtain ⟨hnil, hparams⟩ := hshows.of_not_arrived hm hid
    rw [hnil, hparams]
    refine ⟨?_, fun _ => rfl⟩
    rintro ⟨g, hg, -⟩
    cases hg

end Stage

/-! ### Loaded doclets -/

namespace Resolution

variable {settings : Settings} {doclets : List Doclet}

theorem nodup_names_start (hloaded : ∀ d ∈ doclets, d.IsLoaded) (id : DocletId) :
    (((Run.start doclets).doclet id).params.map Param.name).Nodup := by
  by_cases hid : id < doclets.length
  · rw [doclet_start hid]
    obtain ⟨raw, hraw⟩ := hloaded _ (List.getElem_mem hid)
    exact Doclet.nodup_names_of_ofMapping hraw
  · have hsize : (Run.start doclets).doclets.size ≤ id := by simpa [Run.start] using hid
    rw [Run.doclet_of_size_le hsize]
    exact List.nodup_nil

/-- In every state that a run over loaded doclets shows, and so in the one in which it ends, no
doclet lists a name twice. A doclet lists the names that it was loaded with and nothing else, as
long as no ancestor with parameters was merged; and from then on its whole signature as well, where
each name that was missing has its place by its first mention. -/
theorem names_params_of_loaded (hloaded : ∀ d ∈ doclets, d.IsLoaded) :
    (∃ m : Stage, m.Occurs settings (Run.start doclets) ∧
      m.Shows settings m.passes (runAll settings doclets).1 ∧
      ((runAll settings doclets).2 = none → m.passes = passes settings doclets)) ∧
    ∀ (m : Stage) (ps : List Pass) (r : Run), m.Occurs settings (Run.start doclets) →
      m.Shows settings ps r → ∀ (id : DocletId) (loaded : Doclet),
      (Run.start doclets).doclet id = loaded →
      ((r.doclet id).params.map Param.name).Nodup ∧
      ((∀ g ∈ mergesInto ps id, (r.doclet g.ancestor).params = []) →
        (r.doclet id).params.map Param.name = loaded.params.map Param.name) ∧
      ((∃ g ∈ mergesInto ps id, (r.doclet g.ancestor).params ≠ []) →
        (r.doclet id).params.map Param.name = loaded.params.map Param.name ++
          (loaded.paramNames.filter fun n => n ∉ loaded.params.map Param.name).eraseDups ∧
        ∀ n ∈ loaded.paramNames, ((r.doclet id).params.map Param.name).count n = 1) := by
  refine ⟨exists_shows fun d hd => (hloaded d hd).isFresh, ?_⟩
  rintro m ps r hm hshows id loaded rfl
  obtain ⟨hexists, hforall⟩ := hshows.map_name_params hm id
  have hloadedNames := nodup_names_start hloaded id
  have hnodup : ((r.doclet id).params.map Param.name).Nodup := by
    by_cases h : ∃ g ∈ mergesInto ps id, (r.doclet g.ancestor).params ≠ []
    · rw [hexists h]
      exact Param.nodup_extend hloadedNames
    · rw [hforall (by simpa using h)]
      exact hloadedNames
  refine ⟨hnodup, hforall, fun h => ⟨hexists h, fun n hn => ?_⟩⟩
  rw [List.count_eq_one_of_mem hnodup]
  rw [hexists h]
  exact Param.mem_extend_of_mem hn

/-- A mapping with nothing but a name. -/
def named (name : Text) : Value := .map [(.text "name", .text name)]

/-- Two doclets as they are read. The signature of the first one and its parameters mention a name
twice, and it inherits the parameters of the other one. -/
def repeatingDump : List Mapping := [
  [(.text "longname", .text "D"),
    (.text "meta", .map
      [(.text "code", .map [(.text "paramnames", Value.ofTexts ["x", "y", "x"])])]),
    (.text "params", .list [named "y", named "y"]),
    (.text "tags", .list
      [.map [(.text "title", .text "inheritparams"), (.text "value", .text "A")]])],
  [(.text "longname", .text "A"), (.text "params", .list [named "z"])]]

/-- The doclets that are read. -/
def repeating : List Doclet := repeatingDump.filterMap fun raw => (Doclet.ofMapping raw).toOption

theorem isLoaded_repeating : ∀ d ∈ repeating, d.IsLoaded := by
  intro d hd
  obtain ⟨raw, -, hraw⟩ := List.mem_filterMap.mp hd
  refine ⟨raw, ?_⟩
  cases hread : Doclet.ofMapping raw with
  | error fault => rw [hread] at hraw; cases hraw
  | ok d' => rw [hread] at hraw; cases hraw; rfl

theorem values_repeating : (((Run.start repeating).doclet 0).params.map Param.name,
    ((Run.start repeating).doclet 0).paramNames,
    (mergesInto (passes .standard repeating) 0).map Merge.ancestor,
    ((runAll .standard repeating).1.doclet 1).params.map Param.name) =
    ([Text.ofString "y"], [Text.ofString "x", "y", "x"], [1], [Text.ofString "z"]) := by
  cbv

/-- A name that the signature repeats is listed once, after what the doclet was loaded with, and the
other parameter of the ancestor is not. -/
theorem names_params_of_loaded_repeating :
    (∀ d ∈ repeating, d.IsLoaded) ∧ (runAll .standard repeating).2 = none ∧
      (∃ g ∈ mergesInto (passes .standard repeating) 0,
        ((runAll .standard repeating).1.doclet g.ancestor).params ≠ []) ∧
      ((Run.start repeating).doclet 0).paramNames = [Text.ofString "x", "y", "x"] ∧
      ((runAll .standard repeating).1.doclet 0).params.map Param.name =
        [Text.ofString "y", "x"] ∧
      (((runAll .standard repeating).1.doclet 0).params.map Param.name).count (Text.ofString "x") =
        1 := by
  have hnone : (runAll .standard repeating).2 = none :=
    snd_runAll Settings.canJoin_standard repeating
  obtain ⟨hown, hsignature, hmerged, hancestor⟩ := by
    simpa only [Prod.mk.injEq] using values_repeating
  have hm : Stage.Occurs .standard (Run.start repeating)
      ⟨_, passes .standard repeating, (runAll .standard repeating).1, [], none⟩ :=
    execution (fun d hd => (isLoaded_repeating d hd).isFresh) (Prod.ext rfl hnone)
  have hexists : ∃ g ∈ mergesInto (passes .standard repeating) 0,
      ((runAll .standard repeating).1.doclet g.ancestor).params ≠ [] := by
    have hmem : 1 ∈ (mergesInto (passes .standard repeating) 0).map Merge.ancestor := by
      rw [hmerged]
      exact List.mem_singleton.mpr rfl
    obtain ⟨g, hg, hone⟩ := List.mem_map.mp hmem
    refine ⟨g, hg, fun hnil => ?_⟩
    rw [hone] at hnil
    rw [hnil] at hancestor
    cases hancestor
  have hnamed := (names_params_of_loaded isLoaded_repeating).2 _ _ _ hm .now 0 _ rfl
  obtain ⟨hnames, hcount⟩ := hnamed.2.2 hexists
  rw [hown, hsignature] at hnames
  rw [hsignature] at hcount
  exact ⟨isLoaded_repeating, hnone, hexists, hsignature, hnames.trans (by decide),
    hcount _ List.mem_cons_self⟩

end Resolution

end DocLineage
