import DocLineage.Proofs.Rerun
import DocLineage.Proofs.Retention

/-!
# Writing over what was read

A doclet is written as the mapping that it was read from, with its own fields laid over it. This
mapping stays with the doclet through all the runs that it takes part in, so that whatever is not
among these fields is written as it was read, and where it stood. A doclet that was only read and
written comes back from what was written, and is written once more as the same mapping: all that
writing makes regular is regular after the first time.

## Main definitions

* `Mapping.Keeps` — a mapping with the keys and values of another one, but for some names
* `Resolution.Resolves` — a doclet before and after a run that it takes part in

## Main results

* `Mapping.keeps_layer` — a layer touches nothing but its own fields
* `Doclet.written_of_ofMapping` — what was only read is written alike a second time
* `Resolution.keeps_and_settles` — both for whatever can be read
-/

namespace DocLineage

/-! ### What a layer leaves alone -/

namespace Mapping

/-- A mapping has the keys of another one in their order, followed by some of the given names, and
the same value at the place of every key that is not among these names. -/
structure Keeps (names : List Text) (m m' : Mapping) : Prop where
  keys : ∃ added : List Text, m'.keys = m.keys ++ added.map Scalar.text ∧ added ⊆ names
  entries : ∀ (i : Nat) (key : Scalar) (value : Value), m[i]? = some (key, value) →
    (∀ name ∈ names, key ≠ .text name) → m'[i]? = some (key, value)

variable {names names' : List Text} {m m' m'' : Mapping} {name : Text} {v : Value}
  {layers : List (Text × Option Value)}

theorem Keeps.refl (names : List Text) (m : Mapping) : m.Keeps names m where
  keys := ⟨[], (List.append_nil _).symm, List.nil_subset _⟩
  entries _ _ _ h _ := h

theorem Keeps.trans (h : m.Keeps names m') (h' : m'.Keeps names m'') : m.Keeps names m'' where
  keys := by
    obtain ⟨added, hadded, hnames⟩ := h.keys
    obtain ⟨added', hadded', hnames'⟩ := h'.keys
    refine ⟨added ++ added', ?_, List.append_subset.mpr ⟨hnames, hnames'⟩⟩
    rw [hadded', hadded, List.append_assoc, List.map_append]
  entries i key value hi hkey := h'.entries i key value (h.entries i key value hi hkey) hkey

theorem getElem?_set_of_ne {i : Nat} {key : Scalar} {value : Value}
    (h : m[i]? = some (key, value)) (hkey : key ≠ .text name) :
    (m.set name v)[i]? = some (key, value) := by
  unfold set
  -- on the entries up to the one that is set: before it nothing moves, and behind it neither
  induction m generalizing i with
  | nil => cases h
  | cons e m ih =>
    obtain ⟨k, w⟩ := e
    rw [insert]
    split
    · next hk =>
      cases i with
      | zero =>
        -- the key that is found is the name itself
        cases h
        exact absurd (Scalar.eq_of_sameKey_text hk) hkey
      | succ i => exact h
    · cases i with
      | zero => exact h
      | succ i => exact ih h

/-- Setting a field touches nothing but this field. -/
theorem keeps_setSome (h : name ∈ names) (value : Option Value) :
    m.Keeps names (m.setSome name value) := by
  cases value with
  | none => exact .refl names m
  | some v =>
    constructor
    case keys =>
      have hkeys := keys_set m name v
      split at hkeys
      · exact ⟨[], hkeys.trans (List.append_nil _).symm, List.nil_subset _⟩
      · exact ⟨[name], hkeys, List.cons_subset.mpr ⟨h, List.nil_subset _⟩⟩
    case entries => exact fun i key value hi hkey => getElem?_set_of_ne hi (hkey name h)

/-- A layer touches nothing but its own fields. -/
theorem keeps_layer (h : layers.map Prod.fst ⊆ names) : m.Keeps names (m.layer layers) := by
  induction layers generalizing m with
  | nil => exact .refl names m
  | cons l ls ih =>
    rw [List.map_cons, List.cons_subset] at h
    rw [layer_cons]
    exact (keeps_setSome h.1 l.2).trans (ih h.2)

end Mapping

/-! ### Written doclets -/

namespace Doclet

variable {raw : Mapping} {d : Doclet}

theorem keeps_toMapping (d : Doclet) : d.raw.Keeps ownFields d.toMapping := by
  rw [toMapping_eq_layer]
  exact Mapping.keeps_layer (map_fst_layers (d := d) ▸ List.Subset.refl _)

/-- What was read and written is written alike when it is read once more. -/
theorem written_of_ofMapping (h : ofMapping raw = .ok d) :
    ∃ d', ofMapping d.toMapping = .ok d' ∧ d'.toMapping = d.toMapping := by
  -- what is read back is the doclet with the written mapping for its own
  refine ⟨d.renewed d, (revises_of_ofMapping h).ofMapping_toMapping h, ?_⟩
  have hechoes : d.Echoes (d.renewed d) := echoes_renewed_self (name_ne_nil_of_ofMapping h)
  have hlayers : (d.renewed d).layers = d.layers := hechoes.layers_eq course_renewed rfl
  calc (d.renewed d).toMapping = d.toMapping.layer d.layers := by
        rw [toMapping_eq_layer, hlayers]
        rfl
    _ = d.toMapping := by
        -- the same fields were laid over the mapping before
        rw [toMapping_eq_layer]
        exact Mapping.layer_layer (map_fst_layers (d := d) ▸ nodup_ownFields)

end Doclet

/-! ### Doclets in runs -/

namespace Resolution

/-- A doclet as it is before and after a run that it takes part in, whatever the configuration, the
other doclets and the fate of the run. -/
def Resolves (d d' : Doclet) : Prop :=
  ∃ (config : Config) (doclets : List Doclet) (report : Option Report) (id : DocletId),
    doclets[id]? = some d ∧ (resolve config doclets report).doclets[id]? = some d'

variable {raw : Mapping} {d d' : Doclet}

/-- The mapping that a doclet was read from stays with it. -/
theorem Resolves.raw_eq (h : Resolves d d') : d'.raw = d.raw := by
  obtain ⟨config, doclets, report, id, hd, hd'⟩ := h
  -- the mappings of all doclets are the same, so that those at one place are
  have hraws := fields_resolve Doclet.isFixed_raw config doclets report
  have hat : some d'.raw = some d.raw := by
    have hget := congrArg (·[id]?) hraws
    simpa only [List.getElem?_map, hd, hd', Option.map_some] using hget
  exact Option.some.inj hat

theorem raw_eq_of_reflTransGen (h : Relation.ReflTransGen Resolves d d') : d'.raw = d.raw := by
  induction h with
  | refl => rfl
  | tail _ hstep ih => exact hstep.raw_eq.trans ih

/-- Whatever can be read is written, after any number of runs, with its keys in their order and with
all that resolution does not own; and without a run, writing it and reading it back changes nothing
any more after the first time. -/
theorem keeps_and_settles (h : Doclet.ofMapping raw = .ok d) :
    (∀ d', Relation.ReflTransGen Resolves d d' → raw.Keeps Doclet.ownFields d'.toMapping) ∧
      ∃ d', Doclet.ofMapping d.toMapping = .ok d' ∧ d'.toMapping = d.toMapping := by
  refine ⟨fun d' hruns => ?_, Doclet.written_of_ofMapping h⟩
  have hraw : d.raw = raw := (Doclet.Reads.of_ofMapping h).raw
  rw [← hraw, ← raw_eq_of_reflTransGen hruns]
  exact d'.keeps_toMapping

/-- A mapping with a number for a key and for a text, and with parameters that are no mapping, have
no name or come twice. -/
def unrulyRaw : Mapping := [
  (.int 1, .text "kept"), (.text "longname", .text "D"), (.text "description", .int 7),
  (.text "params", .list [.text "x", named "x", .map [], named "x"]),
  (.text "see", .text "S"), (.text "extra", .list [.null]),
  (.text "tags", .list [.map [(.text "title", .text "inheritdoc"), (.text "value", .text "A")]])]

/-- What is read from it. -/
def unruly : Doclet := ((Doclet.ofMapping unrulyRaw).toOption).getD {}

/-- The doclet that it inherits from. -/
def unrulyAncestor : Doclet :=
  { longname := "A", summary := { text := some (Text.ofString "of A") } }

theorem ofMapping_unrulyRaw : Doclet.ofMapping unrulyRaw = .ok unruly := by
  rfl

theorem values_unruly : (resolve Config.defaults [unruly, unrulyAncestor] none).doclets[0]?.map
    (fun d => (d.toMapping.keys, d.toMapping.get? "see")) =
    some (unrulyRaw.keys ++ [.text "summary"], some (Value.ofTexts ["S", "A"])) := by
  cbv

/-- A run adds a summary at the end and a link in its place, and leaves the rest as it stands;
without it, only the number, the link and the parameters are made regular, once and for all. -/
theorem keeps_and_settles_unruly :
    Doclet.ofMapping unrulyRaw = .ok unruly ∧
      (∃ d', Resolves unruly d' ∧ d'.toMapping.keys = unrulyRaw.keys ++ [.text "summary"] ∧
        d'.toMapping.get? "see" = some (Value.ofTexts ["S", "A"]) ∧
        unrulyRaw.Keeps Doclet.ownFields d'.toMapping) ∧
      unruly.toMapping.get? "description" = some (.text "7") ∧
      unruly.toMapping.get? "params" = some (.list [named "x"]) ∧
      ∃ d', Doclet.ofMapping unruly.toMapping = .ok d' ∧ d'.toMapping = unruly.toMapping := by
  have hread := ofMapping_unrulyRaw
  obtain ⟨hkeeps, hsettles⟩ := keeps_and_settles hread
  refine ⟨hread, ?_, rfl, rfl, hsettles⟩
  obtain ⟨d', hd', hvalues⟩ := Option.map_eq_some_iff.mp values_unruly
  have hresolves : Resolves unruly d' :=
    ⟨Config.defaults, [unruly, unrulyAncestor], none, 0, rfl, hd'⟩
  obtain ⟨hkeys, hsee⟩ := Prod.mk.inj hvalues
  exact ⟨d', hresolves, hkeys, hsee, hkeeps d' (.single hresolves)⟩

end Resolution

end DocLineage
