import DocLineage.Doclet.OfMapping

/-!
# Freshly loaded doclets

A doclet that was just read from a mapping has not taken part in a run: nothing was declared on it,
and all its prose is its own.

## Main definitions

* `Doclet.IsLoaded` — a doclet that was read from a mapping
* `Doclet.IsFresh` — a doclet that has not taken part in a run
* `Doclet.tagged` — a doclet of which nothing but its name and its tags is known

## Main results

* `Doclet.isFresh_of_ofMapping` — a doclet that was read from a mapping is fresh
* `Doclet.nodup_names_of_ofMapping` — its parameters have different names
-/

namespace DocLineage.Doclet

/-- A doclet that was read from a mapping. -/
def IsLoaded (d : Doclet) : Prop := ∃ raw, ofMapping raw = .ok d

/-- A doclet that has not taken part in a run. -/
structure IsFresh (d : Doclet) : Prop where
  pending : d.pending = []
  declared : d.declared = 0
  description : d.description.source = none
  summary : d.summary.source = none
  classdesc : d.classdesc.source = none
  inheritParamsOnly : d.inheritParamsOnly = false
  otherSources : d.otherSources = []
  enclosing : d.enclosing = none

variable {raw code : Mapping} {longname : Text} {d d' : Doclet} {params : List Param}

/-- What is read after something else is read only if that was read without a fault. -/
theorem bind_eq_ok_iff {α β : Type} {x : Except Fault α} {f : α → Except Fault β} {b : β} :
    (x >>= f) = .ok b ↔ ∃ a, x = .ok a ∧ f a = .ok b := by
  cases x with
  | error fault =>
    constructor
    · intro h
      cases h
    · rintro ⟨a, h, -⟩
      cases h
  | ok a =>
    constructor
    · exact fun h => ⟨a, rfl, h⟩
    · rintro ⟨a', h, h'⟩
      cases h
      exact h'

theorem isFresh_of_front (h : front raw code longname = .ok d) : d.IsFresh := by
  simp only [front, bind_eq_ok_iff] at h
  obtain ⟨name, -, kind, -, memberof, -, scope, -, codeId, -, description, -, summary, -,
    classdesc, -, h⟩ := h
  cases h
  exact ⟨rfl, rfl, rfl, rfl, rfl, rfl, rfl, rfl⟩

theorem IsFresh.of_back (hd : d.IsFresh) (h : back raw code d params = .ok d') : d'.IsFresh := by
  simp only [back, bind_eq_ok_iff] at h
  obtain ⟨returns, -, see, -, superclasses, -, paramNames, -, tags, -, h⟩ := h
  cases h
  exact ⟨hd.pending, hd.declared, hd.description, hd.summary, hd.classdesc, hd.inheritParamsOnly,
    hd.otherSources, hd.enclosing⟩

/-- A doclet that was read from a mapping is fresh. -/
theorem isFresh_of_ofMapping (h : ofMapping raw = .ok d) : d.IsFresh := by
  unfold ofMapping read at h
  dsimp only at h
  split at h
  · cases h
  · next code d' described hbeginning =>
    obtain ⟨⟨code', longname⟩, -, hbeginning⟩ := bind_eq_ok_iff.mp hbeginning
    obtain ⟨front, hfront, hbeginning⟩ := bind_eq_ok_iff.mp hbeginning
    obtain ⟨described', -, hbeginning⟩ := bind_eq_ok_iff.mp hbeginning
    cases hbeginning
    obtain ⟨params, -, hback⟩ := bind_eq_ok_iff.mp h
    exact (isFresh_of_front hfront).of_back hback

theorem IsLoaded.isFresh (h : d.IsLoaded) : d.IsFresh := by
  obtain ⟨raw, hraw⟩ := h
  exact isFresh_of_ofMapping hraw

/-- A doclet with nothing but a name and tags, each tag with the ancestor that it names. -/
def tagged (longname : Text) (tags : List (Text × Text)) : Doclet :=
  { longname, tags := tags.map fun (title, ancestor) => ⟨title, some ancestor⟩ }

theorem isFresh_tagged (longname : Text) (tags : List (Text × Text)) :
    (tagged longname tags).IsFresh := by
  constructor <;> rfl

/-! ### Parameters -/

theorem name_of_param {m : Mapping} {name : Text} {p : Param} (h : param m name = .ok p) :
    p.name = name := by
  obtain ⟨description, -, h⟩ := bind_eq_ok_iff.mp h
  cases h
  rfl

/-- Parameters are read once for each name, and none under a name that has come before. -/
theorem nodup_paramList {seen : List Text} {ms : List Mapping}
    (h : (paramList longname seen ms).1 = .ok params) :
    (params.map Param.name).Nodup ∧ ∀ p ∈ params, p.name ∉ seen := by
  induction ms generalizing seen params with
  | nil =>
    cases h
    exact ⟨List.nodup_nil, nofun⟩
  | cons m ms ih =>
    rw [paramList] at h
    split at h
    · exact ih h
    · split at h
      · exact ih h
      · split at h
        · cases h
        · next name _ =>
          split at h
          · exact ih h
          · next hseen =>
            split at h
            · cases h
            · next p hp =>
              -- the names that are read after this one are different from it
              cases hrest : (paramList longname (name :: seen) ms).1 with
              | error fault =>
                simp only [hrest] at h
                cases h
              | ok rest =>
                simp only [hrest] at h
                cases h
                obtain ⟨hnodup, hnew⟩ := ih hrest
                have hname := name_of_param hp
                constructor
                · rw [List.map_cons, List.nodup_cons, hname]
                  refine ⟨?_, hnodup⟩
                  intro hmem
                  obtain ⟨q, hq, hqname⟩ := List.mem_map.mp hmem
                  exact hnew q hq (hqname ▸ List.mem_cons_self)
                · intro q hq
                  rcases List.mem_cons.mp hq with rfl | hq
                  · rw [hname]
                    simpa using hseen
                  · exact fun hmem => hnew q hq (List.mem_cons_of_mem _ hmem)

theorem params_of_back (h : back raw code d params = .ok d') : d'.params = params := by
  simp only [back, bind_eq_ok_iff] at h
  obtain ⟨returns, -, see, -, superclasses, -, paramNames, -, tags, -, h⟩ := h
  cases h
  rfl

/-- The parameters of a doclet that was read from a mapping have different names. -/
theorem nodup_names_of_ofMapping (h : ofMapping raw = .ok d) :
    (d.params.map Param.name).Nodup := by
  unfold ofMapping read at h
  dsimp only at h
  split at h
  · cases h
  · obtain ⟨params, hparams, hback⟩ := bind_eq_ok_iff.mp h
    rw [params_of_back hback]
    exact (nodup_paramList hparams).1

end DocLineage.Doclet
