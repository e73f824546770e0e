import DocLineage.Proofs.ParamNames
import DocLineage.Proofs.Rereading

/-!
# Merging the same ancestors again

A doclet that has inherited from some ancestors, and inherits from the same ones once more in the
same order, ends with what it had. Every part of it has its own reason: what is documented stays, a
placeholder gives way to placeholders of the ancestors as it did before, return values are taken by
a doclet that has none, and prose that was blank in the end was offered nothing.

The doclet may have been written and read back in between, and so may its ancestors. Entries that
are read back differ from those that were written in the mapping that they come from, and this is
left out of account here: entries are compared as they are read back.

## Main definitions

* `Param.take` — what is found under a name of the signature after a merge

## Main results

* `foldl_again` — steps that change nothing when they are taken again
* `Doclet.findParam?_replay` — what is found under a name of the signature after many merges
* `Doclet.renewed_params_replay`, `Doclet.renewed_returns_replay`, `Doclet.text_prose_replay` — the
  parts of a doclet that merges the same ancestors again
-/

namespace DocLineage

/-- Steps change nothing when they are taken again, if each of them either leaves the outcome as it
is or does to it what it did before. -/
theorem foldl_again {α β : Type} {f : β → α → β}
    (h : ∀ b a as, f ((a :: as).foldl f b) a = (a :: as).foldl f b ∨
      f ((a :: as).foldl f b) a = f b a) (b : β) (as : List α) :
    as.foldl f (as.foldl f b) = as.foldl f b := by
  -- on the way the second time is either at the end already, or where the first time was
  suffices hboth : ∀ (as : List α) (b b' : β), b' = as.foldl f b ∨ b' = b →
      as.foldl f b' = as.foldl f b from hboth as b _ (Or.inl rfl)
  intro as
  induction as with
  | nil =>
    intro b b' hb
    rcases hb with rfl | rfl <;> rfl
  | cons a as ih =>
    intro b b' hb
    apply ih (f b a) (f b' a)
    rcases hb with rfl | rfl
    · exact h b a as
    · exact Or.inr rfl

/-! ### Parameters -/

namespace Param

open Doclet (findParam?)

/-- What is found under a name of the signature after a merge, where `own` is what was found before
and `inherited` what the ancestor has. -/
def take (placeholder : Param) (own inherited : Option Param) : Option Param :=
  match own, inherited with
  | some p, some q => if p.synthesized then some q else some p
  | some p, none => some p
  | none, some q => some q
  | none, none => some placeholder

variable {p q standing : Param} {own inherited : Option Param} {offers : List (Option Param)}
  {ancestor params params' : List Param} {placeholder : Value} {name : Text}
  {signature : List Text}

/-- What is documented stays. -/
theorem take_of_documented (h : p.synthesized = false) :
    take standing (some p) inherited = some p := by
  cases inherited with
  | none => rfl
  | some q => simp [take, h]

theorem foldl_take_of_documented (h : p.synthesized = false) :
    offers.foldl (take standing) (some p) = some p := by
  induction offers with
  | nil => rfl
  | cons a as ih => rw [List.foldl_cons, take_of_documented h, ih]

/-- A second merge of the same entry changes nothing. -/
theorem take_take : take standing (take standing own inherited) inherited =
    take standing own inherited := by
  cases own with
  | none => cases inherited <;> simp [take]
  | some p =>
    cases inherited with
    | none => rfl
    | some q => cases hp : p.synthesized <;> simp [take, hp]

theorem exists_take : ∃ p, take standing own inherited = some p := by
  cases own with
  | none => cases inherited <;> exact ⟨_, rfl⟩
  | some p =>
    cases inherited with
    | none => exact ⟨p, rfl⟩
    | some q => cases hp : p.synthesized <;> simp [take, hp]

theorem exists_foldl_take : ∃ p, offers.foldl (take standing) (some q) = some p := by
  induction offers generalizing q with
  | nil => exact ⟨q, rfl⟩
  | cons a as ih =>
    obtain ⟨p, hp⟩ := @exists_take standing (some q) a
    rw [List.foldl_cons, hp]
    exact ih

/-- What is offered again in the same order changes nothing. -/
theorem foldl_take_again (own : Option Param) (offers : List (Option Param)) :
    offers.foldl (take standing) (offers.foldl (take standing) own) =
      offers.foldl (take standing) own := by
  apply foldl_again
  intro own inherited offers
  obtain ⟨p, hp⟩ : ∃ p, (inherited :: offers).foldl (take standing) own = some p := by
    obtain ⟨q, hq⟩ := @exists_take standing own inherited
    rw [List.foldl_cons, hq]
    exact exists_foldl_take
  rw [hp]
  cases hsynthesized : p.synthesized with
  | false => exact Or.inl (take_of_documented hsynthesized)
  | true =>
    cases inherited with
    | none => exact Or.inl rfl
    | some q =>
      -- a placeholder in the end means that there was no documentation at any time
      right
      rw [take, if_pos hsynthesized]
      cases own with
      | none => rfl
      | some p' =>
        cases hown : p'.synthesized with
        | true => rw [take, if_pos hown]
        | false =>
          rw [foldl_take_of_documented hown] at hp
          cases hp
          cases hown.symm.trans hsynthesized

/-! ### Filling a signature -/

theorem findParam?_slot_self : findParam? (slot ancestor placeholder params name) name =
    take (standIn placeholder name) (findParam? params name) (findParam? ancestor name) := by
  unfold slot
  cases hown : findParam? params name with
  | none =>
    cases hancestor : findParam? ancestor name with
    | none => simp [findParam?_append_singleton, hown, take, standIn]
    | some inherited =>
      have hname := name_of_findParam? hancestor
      simp [findParam?_append_singleton, hown, take, hname]
  | some p =>
    cases hancestor : findParam? ancestor name with
    | none => exact hown
    | some inherited =>
      dsimp only
      cases hp : p.synthesized with
      | true =>
        rw [if_pos rfl, findParam?_replace_self (name_of_findParam? hancestor) hown]
        simp [take, hp]
      | false => simp [take, hp, hown]

theorem findParam?_fill : findParam? (fill ancestor placeholder signature params) name =
    if name ∈ signature ∧ ancestor ≠ [] then
      take (standIn placeholder name) (findParam? params name) (findParam? ancestor name)
    else findParam? params name := by
  unfold fill
  by_cases hnil : ancestor = []
  · simp [hnil]
  · rw [if_neg (by simpa using hnil)]
    simp only [ne_eq, hnil, not_false_eq_true, and_true]
    induction signature generalizing params with
    | nil => rfl
    | cons n ns ih =>
      rw [List.foldl_cons, ih]
      by_cases hn : name = n
      · -- a name that comes again finds its slot filled
        subst hn
        rw [findParam?_slot_self, take_take, if_pos List.mem_cons_self, ite_self]
      · rw [findParam?_slot_of_ne hn]
        simp [hn]

/-! ### Entries as they are read back -/

/-- An entry that was read back is read back as it is. -/
theorem renewed_renewed : p.renewed.renewed = p.renewed := by
  have hraw : p.renewed.toMapping = p.toMapping := toMapping_setRaw
  unfold renewed at hraw ⊢
  rw [hraw]

theorem map_renewed_take : (take standing own inherited).map renewed =
    take standing.renewed (own.map renewed) (inherited.map renewed) := by
  cases own with
  | none => cases inherited <;> rfl
  | some p =>
    cases inherited with
    | none => rfl
    | some q =>
      change (if p.synthesized then some q else some p).map renewed =
        if p.synthesized then some q.renewed else some p.renewed
      split <;> rfl

theorem map_renewed_foldl_take : (offers.foldl (take standing) own).map renewed =
    (offers.map (Option.map renewed)).foldl (take standing.renewed) (own.map renewed) := by
  induction offers generalizing own with
  | nil => rfl
  | cons a as ih => rw [List.foldl_cons, ih, map_renewed_take, List.map_cons, List.foldl_cons]

theorem map_name_renewed : (params.map renewed).map Param.name = params.map Param.name := by
  rw [List.map_map]
  rfl

theorem findParam?_map_renewed :
    findParam? (params.map renewed) name = (findParam? params name).map renewed := by
  unfold findParam?
  rw [List.find?_map]
  rfl

/-- Entries of different names are known by what is found under each name. -/
theorem map_renewed_ext (hnames : params.map Param.name = params'.map Param.name)
    (hnodup : (params.map Param.name).Nodup)
    (h : ∀ name, (findParam? params name).map renewed = (findParam? params' name).map renewed) :
    params.map renewed = params'.map renewed := by
  induction params generalizing params' with
  | nil =>
    rw [List.map_nil, eq_comm, List.map_eq_nil_iff] at hnames
    rw [hnames]
  | cons p ps ih =>
    cases params' with
    | nil => cases hnames
    | cons q qs =>
      rw [List.map_cons, List.map_cons, List.cons.injEq] at hnames
      rw [List.map_cons, List.nodup_cons] at hnodup
      have hfirst := h p.name
      unfold findParam? at hfirst
      rw [List.find?_cons, List.find?_cons, ← hnames.1, beq_self_eq_true] at hfirst
      rw [List.map_cons, List.map_cons, Option.some.inj hfirst]
      congr 1
      refine ih hnames.2 hnodup.2 fun name => ?_
      by_cases hname : p.name = name
      · -- the name does not come again
        subst hname
        rw [findParam?_eq_none_iff.mpr hnodup.1, findParam?_eq_none_iff.mpr]
        rw [← hnames.2]
        exact hnodup.1
      · have hrest := h name
        unfold findParam? at hrest ⊢
        have hne : (p.name == name) = false := by simpa using hname
        rwa [List.find?_cons, List.find?_cons, ← hnames.1, hne] at hrest

end Param

/-! ### Many merges -/

namespace Doclet

variable {d d' : Doclet} {placeholder : Value} {read read' : DocletId → Doclet} {ms : List Merge}
  {name : Text} {field : ProseField}

/-- What the ancestors that are merged offer under a name; one without any parameters offers
nothing, not even a placeholder. -/
def offers (read : DocletId → Doclet) (ms : List Merge) (name : Text) : List (Option Param) :=
  (ms.filter fun m => !(read m.ancestor).params.isEmpty).map fun m =>
    findParam? (read m.ancestor).params name

/-- Under a name of the signature a doclet takes what its ancestors offer, in order. -/
theorem findParam?_replay (h : name ∈ d.paramNames) :
    findParam? (d.replay placeholder read ms).params name =
      (offers read ms name).foldl (Param.take (Param.standIn placeholder name))
        (findParam? d.params name) := by
  induction ms generalizing d with
  | nil => rfl
  | cons m ms ih =>
    have hsignature : ∀ mode rank, name ∈
        (d.inherit (read m.ancestor) mode placeholder rank).paramNames := fun mode rank => by
      rw [paramNames_inherit]
      exact h
    rw [replay, List.foldl_cons, ← replay, ih (hsignature _ _), params_inherit,
      Param.findParam?_fill, offers, offers, List.filter_cons]
    by_cases hnil : (read m.ancestor).params = []
    · simp [hnil]
    · simp [hnil, h]

/-- Under another name nothing changes. -/
theorem findParam?_replay_of_not_mem (h : name ∉ d.paramNames) :
    findParam? (d.replay placeholder read ms).params name = findParam? d.params name := by
  induction ms generalizing d with
  | nil => rfl
  | cons m ms ih =>
    rw [replay, List.foldl_cons, ← replay, ih (by rw [paramNames_inherit]; exact h),
      params_inherit, Param.findParam?_fill, if_neg fun hboth => h hboth.1]

/-- Ancestors that are read back offer what they did. -/
theorem map_renewed_offers (hread : ∀ m ∈ ms, (read' m.ancestor).params.map Param.renewed =
    (read m.ancestor).params.map Param.renewed) :
    (offers read' ms name).map (Option.map Param.renewed) =
      (offers read ms name).map (Option.map Param.renewed) := by
  have hempty : ∀ m ∈ ms, (read' m.ancestor).params.isEmpty =
      (read m.ancestor).params.isEmpty := fun m hm => by
    have hlength := congrArg List.isEmpty (hread m hm)
    rwa [List.isEmpty_map, List.isEmpty_map] at hlength
  unfold offers
  rw [List.filter_congr fun m hm => by rw [hempty m hm], List.map_map, List.map_map]
  refine List.map_congr_left fun m hm => ?_
  have hm := hread m (List.mem_filter.mp hm).1
  rw [Function.comp_apply, Function.comp_apply, ← Param.findParam?_map_renewed, hm,
    Param.findParam?_map_renewed]

theorem nodup_names_replay (h : (d.params.map Param.name).Nodup) :
    ((d.replay placeholder read ms).params.map Param.name).Nodup := by
  by_cases hsome : ∃ m ∈ ms, (read m.ancestor).params ≠ []
  · rw [map_name_replay_of_exists hsome]
    exact Param.nodup_extend h
  · rw [map_name_replay_of_forall (by simpa using hsome)]
    exact h

/-- The names that a doclet lists are the same when the same ancestors are merged again. -/
theorem map_name_replay_again (hsignature : d'.paramNames = d.paramNames)
    (hstart : d'.params.map Param.name =
      (d.replay placeholder read ms).params.map Param.name)
    (hread : ∀ m ∈ ms, (read' m.ancestor).params = [] ↔ (read m.ancestor).params = []) :
    (d'.replay placeholder read' ms).params.map Param.name =
      (d.replay placeholder read ms).params.map Param.name := by
  by_cases hsome : ∃ m ∈ ms, (read m.ancestor).params ≠ []
  · have hsome' : ∃ m ∈ ms, (read' m.ancestor).params ≠ [] := by
      obtain ⟨m, hm, hne⟩ := hsome
      exact ⟨m, hm, fun hnil => hne ((hread m hm).mp hnil)⟩
    -- the signature is listed already
    rw [map_name_replay_of_exists hsome', hstart, hsignature, map_name_replay_of_exists hsome,
      Param.extend_extend]
  · have hnone : ∀ m ∈ ms, (read m.ancestor).params = [] := by simpa using hsome
    rw [map_name_replay_of_forall fun m hm => (hread m hm).mpr (hnone m hm), hstart]

/-- A doclet that merges the same ancestors again keeps its parameters. -/
theorem renewed_params_replay (hnames : (d.params.map Param.name).Nodup)
    (hsignature : d'.paramNames = d.paramNames)
    (hstart : d'.params.map Param.renewed =
      (d.replay placeholder read ms).params.map Param.renewed)
    (hread : ∀ m ∈ ms, (read' m.ancestor).params.map Param.renewed =
      (read m.ancestor).params.map Param.renewed) :
    (d'.replay placeholder read' ms).params.map Param.renewed =
      (d.replay placeholder read ms).params.map Param.renewed := by
  have hlisted : d'.params.map Param.name =
      (d.replay placeholder read ms).params.map Param.name := by
    rw [← Param.map_name_renewed, hstart, Param.map_name_renewed]
  have hsame : (d'.replay placeholder read' ms).params.map Param.name =
      (d.replay placeholder read ms).params.map Param.name := by
    refine map_name_replay_again hsignature hlisted fun m hm => ?_
    rw [← List.map_eq_nil_iff (f := Param.renewed), hread m hm, List.map_eq_nil_iff]
  refine Param.map_renewed_ext hsame (hsame ▸ nodup_names_replay hnames) fun name => ?_
  have hfound : (findParam? d'.params name).map Param.renewed =
      (findParam? (d.replay placeholder read ms).params name).map Param.renewed := by
    rw [← Param.findParam?_map_renewed, hstart, Param.findParam?_map_renewed]
  by_cases hname : name ∈ d.paramNames
  · -- the offers come again, and change nothing the second time
    rw [findParam?_replay (hsignature ▸ hname), Param.map_renewed_foldl_take, hfound,
      map_renewed_offers hread, findParam?_replay hname, Param.map_renewed_foldl_take]
    exact Param.foldl_take_again _ _
  · rw [findParam?_replay_of_not_mem (hsignature ▸ hname), hfound]

/-! ### Return values -/

theorem map_inheritReturns {f : Return → Return} {own ancestor : Option (List Return)} :
    (inheritReturns own ancestor).map (List.map f) =
      inheritReturns (own.map (List.map f)) (ancestor.map (List.map f)) := by
  match own with
  | none => rfl
  | some [] => rfl
  | some (r :: rs) => rfl

theorem inheritReturns_of_ne_nil {own ancestor : Option (List Return)} (h : own.getD [] ≠ []) :
    inheritReturns own ancestor = own := by
  match own with
  | none => exact absurd rfl h
  | some [] => exact absurd rfl h
  | some (r :: rs) => rfl

theorem inheritReturns_of_eq_nil {own ancestor : Option (List Return)} (h : own.getD [] = []) :
    inheritReturns own ancestor = ancestor := by
  match own with
  | none => rfl
  | some [] => rfl
  | some (r :: rs) => cases h

theorem foldl_inheritReturns_of_ne_nil {own : Option (List Return)}
    {ancestors : List (Option (List Return))} (h : own.getD [] ≠ []) :
    ancestors.foldl inheritReturns own = own := by
  induction ancestors with
  | nil => rfl
  | cons a as ih => rw [List.foldl_cons, inheritReturns_of_ne_nil h, ih]

/-- The return values of the same ancestors in the same order change nothing the second time. -/
theorem foldl_inheritReturns_again (own : Option (List Return))
    (ancestors : List (Option (List Return))) :
    ancestors.foldl inheritReturns (ancestors.foldl inheritReturns own) =
      ancestors.foldl inheritReturns own := by
  apply foldl_again
  intro own ancestor ancestors
  by_cases hnil : ((ancestor :: ancestors).foldl inheritReturns own).getD [] = []
  · -- nothing in the end means that there was nothing at any time
    have hown : own.getD [] = [] := by
      by_contra hne
      rw [foldl_inheritReturns_of_ne_nil hne] at hnil
      exact hne hnil
    rw [inheritReturns_of_eq_nil hnil, inheritReturns_of_eq_nil hown]
    exact Or.inr rfl
  · exact Or.inl (inheritReturns_of_ne_nil hnil)

theorem map_renewed_returns_replay :
    (d.replay placeholder read ms).returns.map (List.map Return.renewed) =
      (ms.map fun m => (read m.ancestor).returns.map (List.map Return.renewed)).foldl
        inheritReturns (d.returns.map (List.map Return.renewed)) := by
  induction ms generalizing d with
  | nil => rfl
  | cons m ms ih =>
    rw [replay, List.foldl_cons, ← replay, ih, returns_inherit, map_inheritReturns, List.map_cons,
      List.foldl_cons]

/-- A doclet that merges the same ancestors again keeps its return values; and so it does if it
begins with the return values that it began with before. -/
theorem renewed_returns_replay
    (hstart : d'.returns.map (List.map Return.renewed) =
        (d.replay placeholder read ms).returns.map (List.map Return.renewed) ∨
      d'.returns = d.returns)
    (hread : ∀ m ∈ ms, (read' m.ancestor).returns.map (List.map Return.renewed) =
      (read m.ancestor).returns.map (List.map Return.renewed)) :
    (d'.replay placeholder read' ms).returns.map (List.map Return.renewed) =
      (d.replay placeholder read ms).returns.map (List.map Return.renewed) := by
  rw [map_renewed_returns_replay, List.map_congr_left hread]
  rcases hstart with hstart | hstart
  · rw [hstart, map_renewed_returns_replay]
    exact foldl_inheritReturns_again _ _
  · rw [hstart, map_renewed_returns_replay]

end Doclet

/-! ### Prose -/

namespace Prose

variable {read read' : DocletId → Prose} {own : Prose} {m : Merge} {ms : List Merge}

theorem isBlank_congr {p q : Prose} (h : p.text = q.text) : p.isBlank = q.isBlank := by
  rw [isBlank, isBlank, h]

theorem offeredProse_congr (h : (read' m.ancestor).text = (read m.ancestor).text) :
    m.offeredProse read' = m.offeredProse read := by
  unfold Merge.offeredProse content
  rw [h]

/-- A field that says something still does after a merge. -/
theorem isBlank_receive (h : own.isBlank = false) : (receive read own m).isBlank = false := by
  rw [receive_eq]
  cases hoffered : m.offeredProse read with
  | none => exact h
  | some t =>
    dsimp only
    split
    · exact isBlank_of_offered hoffered _
    · exact h

/-- A field that is blank in the end was offered nothing, and was blank at the beginning. -/
theorem offered_eq_none_of_isBlank (h : (ms.foldl (receive read) own).isBlank = true) :
    own.isBlank = true ∧ ∀ m ∈ ms, m.offeredProse read = none := by
  induction ms generalizing own with
  | nil => exact ⟨h, nofun⟩
  | cons m ms ih =>
    obtain ⟨hblank, hrest⟩ := ih h
    have hown : own.isBlank = true := by
      by_contra hne
      rw [isBlank_receive (Bool.eq_false_iff.mpr hne)] at hblank
      cases hblank
    refine ⟨hown, ?_⟩
    intro m' hm'
    rcases List.mem_cons.mp hm' with rfl | hm'
    · rw [receive_eq] at hblank
      cases hoffered : m'.offeredProse read with
      | none => rfl
      | some t =>
        simp only [hoffered, hown, Bool.true_or, if_true] at hblank
        rw [isBlank_of_offered hoffered] at hblank
        cases hblank
    · exact hrest m' hm'

/-- A field that is offered nothing stays as it is. -/
theorem foldl_receive_of_not_offered (h : ∀ m ∈ ms, m.offeredProse read = none) :
    ms.foldl (receive read) own = own := by
  induction ms with
  | nil => rfl
  | cons m ms ih =>
    rw [List.foldl_cons, receive_eq, h m List.mem_cons_self]
    exact ih fun m' hm' => h m' (List.mem_cons_of_mem m hm')

end Prose

/-- A doclet that merges the same ancestors again keeps its prose, which is its own now. -/
theorem Doclet.text_prose_replay {d d' : Doclet} {placeholder : Value}
    {read read' : DocletId → Doclet} {ms : List Merge} {field : ProseField}
    (hsource : (d'.prose field).source = none)
    (hstart : (d'.prose field).text = ((d.replay placeholder read ms).prose field).text)
    (hread : ∀ m ∈ ms,
      ((read' m.ancestor).prose field).text = ((read m.ancestor).prose field).text) :
    ((d'.replay placeholder read' ms).prose field).text =
      ((d.replay placeholder read ms).prose field).text := by
  rw [← hstart, prose_replay]
  cases hblank : (d'.prose field).isBlank with
  | false =>
    rw [Prose.foldl_receive_of_not_isOutranked hblank fun m _ => by
      rw [Prose.isOutranked, hsource]]
  | true =>
    have hfinal : ((d.replay placeholder read ms).prose field).isBlank = true := by
      rw [← Prose.isBlank_congr hstart]
      exact hblank
    rw [prose_replay] at hfinal
    obtain ⟨-, hnone⟩ := Prose.offered_eq_none_of_isBlank hfinal
    rw [Prose.foldl_receive_of_not_offered]
    intro m hm
    have hoffered : m.offeredProse (fun x => (read' x).prose field) =
        m.offeredProse fun x => (read x).prose field := Prose.offeredProse_congr (hread m hm)
    rw [hoffered]
    exact hnone m hm

end DocLineage
