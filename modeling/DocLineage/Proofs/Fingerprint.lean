import DocLineage.Proofs.CanonicalText
import DocLineage.Proofs.JoinedText
import DocLineage.Proofs.Lookup
import DocLineage.Proofs.SettingsRead
import Mathlib

/-!
# What a fingerprint promises

Two configurations with one fingerprint have one canonical text, unless the digest hides a
difference. What a run reads of them is then the same, so that the outcome is, whatever the doclets.
There is one exception: the two halves of a surrogate pair are written like the character that they
would be together. Of the texts that a run reads, none may hold two halves that meet.

The order of keys and the settings of the index do not matter, whether there is a fingerprint or
not.

## Main definitions

* `Value.SameText` — plain values that are written alike
* `Value.Reordered` — values that differ in the order of keys only
* `Config.IsPlain`, `Config.IsJoined` — configurations whose text tells what a run reads
* `Config.DigestTells` — the digest hides no difference between two texts

## Main results

* `Value.likeness_sameText`, `Value.likeness_reordered` — both are read alike
* `Resolution.resolve_relevant` — settings of the index are not read
* `Resolution.resolve_eq_of_fingerprint` — the outcome depends on the fingerprint alone
* `Resolution.not_resolve_eq_of_fingerprint` — but not if two halves meet
-/

namespace DocLineage

namespace Value

variable {v w x : Value} {es es' : Mapping} {name k : Text}

/-! ### Values that are written alike -/

theorem IsPlain.hasDistinctKeys (h : (Value.map es).IsPlain) : es.HasDistinctKeys := by
  cases h with
  | map hkeys hnodup _ =>
    refine (List.pairwise_map.mp hnodup).imp_of_mem fun {e e'} he he' hne hsame => hne ?_
    obtain ⟨k, hk⟩ := hkeys e he
    obtain ⟨k', hk'⟩ := hkeys e' he'
    rw [hk, hk', Scalar.sameKey_text_iff] at hsame
    rw [hk, hk', hsame]

theorem IsPlain.mem_of_get? (h : (Value.map es).IsPlain) (hv : es.get? name = some v) :
    (.text name, v) ∈ es := by
  obtain ⟨k, hk, hmem⟩ := Mapping.exists_of_find? hv
  obtain ⟨x, rfl⟩ := h.of_map.1 _ hmem
  rwa [Scalar.sameKey_text_iff.mp hk] at hmem

theorem IsPlain.get?_of_mem (h : (Value.map es).IsPlain) (hv : (.text name, v) ∈ es) :
    es.get? name = some v :=
  Mapping.find?_of_mem h.hasDistinctKeys hv (Scalar.sameKey_refl _)

theorem IsPlain.eq_map (h : v.IsPlain) (hes : v.entries? = some es) : v = .map es := by
  cases h with
  | scalar => cases hes
  | list => cases hes
  | map =>
    cases hes
    rfl

/-- Plain values that are written alike. -/
def SameText (v w : Value) : Prop :=
  v.IsPlain ∧ w.IsPlain ∧ ∃ t, Json.canonical v = .ok t ∧ Json.canonical w = .ok t

theorem SameText.symm (h : SameText v w) : SameText w v := by
  obtain ⟨hv, hw, t, ht, ht'⟩ := h
  exact ⟨hw, hv, t, ht', ht⟩

theorem SameText.kind_eq (h : SameText v w) : v.kind = w.kind := by
  obtain ⟨hv, hw, t, ht, ht'⟩ := h
  rw [← (Json.shows_canonical hv ht).1, (Json.shows_canonical hw ht').1]

theorem SameText.isTruthy_eq (h : SameText v w) : v.isTruthy = w.isTruthy := by
  obtain ⟨hv, hw, t, ht, ht'⟩ := h
  rw [← (Json.shows_canonical hv ht).2, (Json.shows_canonical hw ht').2]

/-- What is written like a text is a text, if not the same. -/
theorem SameText.exists_text {s : Text} (h : SameText (.text s) w) :
    ∃ t, w = .text t ∧ Json.quote s = Json.quote t := by
  have hkind : w.kind = .text := h.kind_eq.symm
  obtain ⟨-, hw, t, ht, ht'⟩ := h
  cases hw with
  | list => cases hkind
  | map => cases hkind
  | scalar x =>
    cases x with
    | text t =>
      cases ht
      exact ⟨t, rfl, (Except.ok.inj ht').symm⟩
    | moment m => cases ht'
    | _ => cases hkind

/-- What is written like a mapping is a mapping. -/
theorem SameText.exists_map (h : SameText (.map es) w) : ∃ es', w = .map es' := by
  have hkind : w.kind = .map := h.kind_eq.symm
  obtain ⟨-, hw, t, ht, ht'⟩ := h
  cases hw with
  | list => cases hkind
  | map => exact ⟨_, rfl⟩
  | scalar x =>
    cases x with
    | moment m => cases ht'
    | _ => cases hkind

/-- The fixed names are written without escapes. -/
theorem plain_names (h : name ∈ Config.titleNames ++ Config.settingNames) :
    '\\' ∉ name.flatMap Json.escapeSymbol := by
  revert name
  decide

/-- What is found in one of two mappings that are written alike is found in the other one, under a
name that is written alike. -/
theorem SameText.exists_get? (h : SameText (.map es) (.map es')) (hv : es.get? name = some v) :
    ∃ k w, es'.get? k = some w ∧ Json.quote name = Json.quote k ∧ SameText v w := by
  obtain ⟨hes, hes', t, ht, ht'⟩ := h
  have hmem := hes.mem_of_get? hv
  obtain ⟨k, w, text, hmem', hquote, htext, htext'⟩ :=
    Json.exists_of_canonical_map_eq hes hes' ht ht' hmem
  exact ⟨k, w, hes'.get?_of_mem hmem', hquote, hes.of_map.2 _ hmem, hes'.of_map.2 _ hmem', text,
    htext, htext'⟩

/-- Values that are written alike are read alike, but for texts that are written alike. -/
theorem likeness_sameText :
    Likeness SameText (fun s t => Json.quote s = Json.quote t → s = t) where
  symm := SameText.symm
  told_symm := fun h heq => (h heq.symm).symm
  kind := SameText.kind_eq
  isTruthy := SameText.isTruthy_eq
  text := fun h => by
    obtain ⟨t, rfl, hquote⟩ := h.exists_text
    exact ⟨t, rfl, fun htold => htold hquote⟩
  entries := fun h hes => by
    obtain rfl := h.1.eq_map hes
    obtain ⟨es', rfl⟩ := h.exists_map
    exact ⟨es', rfl, h⟩
  get? := fun h htold hv => by
    obtain ⟨k, w, hw, hquote, hvw⟩ := h.exists_get? hv
    obtain rfl := htold k w hw hquote
    exact ⟨w, hw, hvw⟩
  names := fun _ hname => Json.eq_of_quote_eq (plain_names hname)

/-! ### Values in another order -/

/-- Values that differ in the order in which the entries of mappings stand. -/
inductive Reordered : Value → Value → Prop
  | refl (v : Value) : Reordered v v
  | perm {es es' : Mapping} (hkeys : es.HasDistinctKeys) (h : es.Perm es') :
      Reordered (.map es) (.map es')
  | entry (es : Mapping) (k : Scalar) {v w : Value} (fs : Mapping) (h : Reordered v w) :
      Reordered (.map (es ++ (k, v) :: fs)) (.map (es ++ (k, w) :: fs))
  | item (vs : List Value) {v w : Value} (ws : List Value) (h : Reordered v w) :
      Reordered (.list (vs ++ v :: ws)) (.list (vs ++ w :: ws))
  | trans {u v w : Value} (h : Reordered u v) (h' : Reordered v w) : Reordered u w

theorem Reordered.symm (h : Reordered v w) : Reordered w v := by
  induction h with
  | refl v => exact .refl v
  | perm hkeys h => exact .perm (h.pairwise hkeys fun hne hsame => hne hsame.symm) h.symm
  | entry es k fs _ ih => exact .entry es k fs ih
  | item vs ws _ ih => exact .item vs ws ih
  | trans _ _ ih ih' => exact .trans ih' ih

theorem Reordered.kind_eq (h : Reordered v w) : v.kind = w.kind := by
  induction h with
  | refl | perm | entry | item => rfl
  | trans _ _ ih ih' => exact ih.trans ih'

theorem Reordered.isTruthy_eq (h : Reordered v w) : v.isTruthy = w.isTruthy := by
  induction h with
  | refl => rfl
  | perm _ h => exact congrArg not h.isEmpty_eq
  | entry es | item es => cases es <;> rfl
  | trans _ _ ih ih' => exact ih.trans ih'

/-- A text has no parts that could stand in another order. -/
theorem Reordered.eq_text {s : Text} (h : Reordered v w) (hv : v = .text s) : w = .text s := by
  induction h with
  | refl => exact hv
  | perm | entry | item => cases hv
  | trans _ _ ih ih' => exact ih' (ih hv)

theorem Reordered.exists_entries? (h : Reordered v w) (hes : v.entries? = some es) :
    ∃ es', w.entries? = some es' ∧ Reordered (.map es) (.map es') := by
  induction h generalizing es with
  | refl => exact ⟨es, hes, .refl _⟩
  | perm hkeys h =>
    cases hes
    exact ⟨_, rfl, .perm hkeys h⟩
  | entry es k fs h _ =>
    cases hes
    exact ⟨_, rfl, .entry es k fs h⟩
  | item => cases hes
  | trans _ _ ih ih' =>
    obtain ⟨es₁, hes₁, h₁⟩ := ih hes
    obtain ⟨es₂, hes₂, h₂⟩ := ih' hes₁
    exact ⟨es₂, hes₂, h₁.trans h₂⟩

theorem Reordered.exists_find? {key : Scalar} (h : Reordered v w) (hes : v = .map es)
    (hfind : Mapping.find? es key = some x) :
    ∃ es' y, w = .map es' ∧ Mapping.find? es' key = some y ∧ Reordered x y := by
  induction h generalizing es x with
  | refl => exact ⟨es, x, hes, hfind, .refl x⟩
  | perm hkeys h =>
    cases hes
    exact ⟨_, x, rfl, (Mapping.find?_perm hkeys h key).symm.trans hfind, .refl x⟩
  | @entry es k v w fs h _ =>
    cases hes
    have hfind' := Mapping.find?_append es ((k, w) :: fs) key
    rw [Mapping.find?_append] at hfind
    rw [Mapping.find?_cons] at hfind hfind'
    -- the key is found before the entry, at the entry, or behind it
    cases hes : Mapping.find? es key with
    | some y =>
      rw [hes] at hfind hfind'
      exact ⟨_, x, rfl, hfind'.trans hfind, .refl x⟩
    | none =>
      rw [hes, Option.none_or] at hfind hfind'
      split at hfind
      · next hk =>
        cases hfind
        exact ⟨_, w, rfl, hfind'.trans (if_pos hk), h⟩
      · next hk => exact ⟨_, x, rfl, (hfind'.trans (if_neg hk)).trans hfind, .refl x⟩
  | item => cases hes
  | trans _ _ ih ih' =>
    obtain ⟨es₁, y, hes₁, hy, h₁⟩ := ih hes hfind
    obtain ⟨es₂, z, hes₂, hz, h₂⟩ := ih' hes₁ hy
    exact ⟨es₂, z, hes₂, hz, h₁.trans h₂⟩

/-- Values in another order are read alike. -/
theorem likeness_reordered : Likeness Reordered (fun _ _ => True) where
  symm := Reordered.symm
  told_symm := id
  kind := Reordered.kind_eq
  isTruthy := Reordered.isTruthy_eq
  text := fun h => ⟨_, h.eq_text rfl, fun _ => rfl⟩
  entries := Reordered.exists_entries?
  get? := fun h _ hv => by
    obtain ⟨es', w, hes', hw, hvw⟩ := h.exists_find? rfl hv
    cases hes'
    exact ⟨w, hw, hvw⟩
  names := fun _ _ => trivial

end Value

/-! ### Settings that are not read -/

namespace Config

variable {config : Config} {name t : Text}

/-- Settings of the index aside, the relevant part of a configuration holds what it holds. -/
theorem get?_relevant (h : name ≠ "index_kinds") :
    Mapping.get? config.relevant name = Mapping.get? config name := by
  refine Mapping.find?_filter fun e _ hname => ?_
  rw [isOutputOnly, Bool.not_eq_true', beq_eq_false_iff_ne]
  intro hindex
  rw [hindex, Scalar.sameKey_text_iff] at hname
  exact h hname.symm

theorem get_relevant (h : name ∈ settingNames) (otherwise : Value) :
    config.relevant.get name otherwise = config.get name otherwise := by
  have hne : name ≠ "index_kinds" := by
    rintro rfl
    revert h
    decide
  unfold get
  rw [get?_relevant hne]

theorem ofConfig_relevant : Settings.ofConfig config.relevant = Settings.ofConfig config := by
  unfold Settings.ofConfig titles separators
  rw [get_relevant (by decide), get_relevant (by decide), get_relevant (by decide),
    get_relevant (by decide), get_relevant (by decide), get_relevant (by decide)]

theorem Reads.of_relevant (h : config.relevant.Reads t) : config.Reads t := by
  cases h with
  | title htags htitles hname ht =>
    rw [get?_relevant (by decide)] at htags
    exact .title htags htitles hname ht
  | placeholder ht =>
    rw [get?_relevant (by decide)] at ht
    exact .placeholder ht
  | otherwise ht =>
    rw [get?_relevant (by decide)] at ht
    exact .otherwise ht
  | scope hseparators hbyScope hscope =>
    rw [get?_relevant (by decide)] at hseparators
    exact .scope hseparators hbyScope hscope
  | separator hseparators hbyScope hscope =>
    rw [get?_relevant (by decide)] at hseparators
    exact .separator hseparators hbyScope hscope

theorem IsSuitable.relevant (h : config.IsSuitable) : config.relevant.IsSuitable where
  placeholder := fun v hv => h.placeholder v (by rwa [get?_relevant (by decide)] at hv)
  otherwise := fun v hv => h.otherwise v (by rwa [get?_relevant (by decide)] at hv)
  separator := fun v byScope scope w hv =>
    h.separator v byScope scope w (by rwa [get?_relevant (by decide)] at hv)

/-- The settings that are fingerprinted are scalars, lists, and mappings with different texts as
keys. -/
def IsPlain (config : Config) : Prop := (Value.map config.relevant).IsPlain

/-- In no text that a run reads of the configuration two halves of a pair meet. -/
def IsJoined (config : Config) : Prop := ∀ t, config.Reads t → t.IsJoined

/-- The texts of two configurations are the same if their digests are. -/
def DigestTells (config config' : Config) : Prop :=
  ∀ s t, Json.canonical (.map config.relevant) = .ok s →
    Json.canonical (.map config'.relevant) = .ok t → Sha256.hexDigest s = Sha256.hexDigest t → s = t

/-- Configurations with one fingerprint have one canonical text. -/
theorem sameText_of_fingerprint {config' : Config} {digest : String} (h : config.IsPlain)
    (h' : config'.IsPlain) (hdigest : config.fingerprint = .ok digest)
    (hdigest' : config'.fingerprint = .ok digest) (htells : config.DigestTells config') :
    Value.SameText (.map config.relevant) (.map config'.relevant) := by
  unfold fingerprint at hdigest hdigest'
  obtain ⟨s, hs, hdigest⟩ := Doclet.bind_eq_ok_iff.mp hdigest
  obtain ⟨t, ht, hdigest'⟩ := Doclet.bind_eq_ok_iff.mp hdigest'
  have heq : s = t := htells s t hs ht
    ((Except.ok.inj hdigest).trans (Except.ok.inj hdigest').symm)
  exact ⟨h, h', t, heq ▸ hs, ht⟩

/-! ### Checking small configurations -/

theorem fingerprint_of_canonical {s : String} (h : Json.canonical (.map config.relevant) = .ok s) :
    config.fingerprint = .ok (Sha256.hexDigest s) := by
  rw [fingerprint, h]
  rfl

theorem digestTells_of_canonical {config' : Config} {s : String}
    (h : Json.canonical (.map config.relevant) = .ok s)
    (h' : Json.canonical (.map config'.relevant) = .ok s) : config.DigestTells config' := by
  intro t t' ht ht' _
  exact Except.ok.inj (ht.symm.trans (h.trans (h'.symm.trans ht')))

/-- Settings that are scalars are plain. -/
theorem isPlain_scalars (settings : List (Text × Scalar)) (h : (settings.map Prod.fst).Nodup) :
    (Value.map (settings.map fun e => (.text e.1, .scalar e.2))).IsPlain := by
  constructor
  · intro e he
    obtain ⟨setting, -, rfl⟩ := List.mem_map.mp he
    exact ⟨_, rfl⟩
  · simpa [List.map_map, Function.comp_def] using
      h.map (f := Scalar.text) fun _ _ => Scalar.text.inj
  · intro e he
    obtain ⟨setting, -, rfl⟩ := List.mem_map.mp he
    exact .scalar _

/-- Without titles and scopes, only the placeholder and the one separator are read. -/
theorem isJoined_of_none (htags : config.get? "tags" = none)
    (hscopes : config.get? "scope_punctuation" = none)
    (hplaceholder : ∀ t, config.get? "placeholder_description" = some (.text t) → t.IsJoined)
    (hotherwise : ∀ t, config.get? "default_scope_punctuation" = some (.text t) → t.IsJoined) :
    config.IsJoined := by
  intro t ht
  cases ht with
  | placeholder ht => exact hplaceholder t ht
  | otherwise ht => exact hotherwise t ht
  | title h =>
    rw [htags] at h
    cases h
  | scope h | separator h =>
    rw [hscopes] at h
    cases h

/-- Without scopes, only the placeholder and the one separator have to be texts. -/
theorem isSuitable_of_none (hscopes : config.get? "scope_punctuation" = none)
    (hplaceholder : ∀ v, config.get? "placeholder_description" = some v → ∃ t, v = .text t)
    (hotherwise : ∀ v, config.get? "default_scope_punctuation" = some v → ∃ t, v = .text t) :
    config.IsSuitable where
  placeholder := hplaceholder
  otherwise := hotherwise
  separator := fun _ _ _ _ h => by
    rw [hscopes] at h
    cases h

end Config

namespace Resolution

variable {config config' : Config}

/-- Settings of the index are not read. -/
theorem resolve_relevant (doclets : List Doclet) (report : Option Report) :
    resolve config.relevant doclets report = resolve config doclets report :=
  resolve_congr (congrArg _ Config.ofConfig_relevant) doclets report

/-- Configurations that are alike, as far as the texts that are read can be told apart, have the
same outcome. -/
theorem resolve_eq_of_likeness {R : Value → Value → Prop} {Told : Text → Text → Prop}
    (hlike : Value.Likeness R Told) (h : R (.map config.relevant) (.map config'.relevant))
    (hsuitable : config.IsSuitable) (htold : ∀ s t, config.Reads s → config'.Reads t → Told s t)
    (doclets : List Doclet) (report : Option Report) :
    resolve config doclets report = resolve config' doclets report := by
  have hreading := hlike.reading_eq h hsuitable.relevant
    fun s t hs ht => htold s t hs.of_relevant ht.of_relevant
  rw [← resolve_relevant, resolve_congr hreading, resolve_relevant]

/-- Runs under configurations with one fingerprint have the same outcome, whatever the doclets, and
so have runs under configurations that differ in the order of keys, or in settings of the index. -/
theorem resolve_eq_of_fingerprint (config config' : Config) (hsuitable : config.IsSuitable) :
    (∀ digest, config.IsPlain → config'.IsPlain → config.IsJoined → config'.IsJoined →
      config.fingerprint = .ok digest → config'.fingerprint = .ok digest →
      config.DigestTells config' →
      ∀ doclets report, resolve config doclets report = resolve config' doclets report) ∧
    (Value.Reordered (.map config.relevant) (.map config'.relevant) →
      ∀ doclets report, resolve config doclets report = resolve config' doclets report) := by
  constructor
  · intro digest hplain hplain' hjoined hjoined' hdigest hdigest' htells
    exact resolve_eq_of_likeness Value.likeness_sameText
      (Config.sameText_of_fingerprint hplain hplain' hdigest hdigest' htells) hsuitable
      fun s t hs ht => Json.quote_inj (hjoined s hs) (hjoined' t ht)
  · intro hreordered
    exact resolve_eq_of_likeness Value.likeness_reordered hreordered hsuitable
      fun _ _ _ _ => trivial

/-- Two settings in the order of their names. -/
def ascending : Config :=
  [(.text "add_see_links", .bool false), (.text "placeholder_description", .text "none")]

/-- The same settings in another order, and one of the index. -/
def descending : Config :=
  [(.text "placeholder_description", .text "none"), (.text "index_kinds", .list []),
    (.text "add_see_links", .bool false)]

/-- The text of which the fingerprint of both is taken. -/
def ascendingText : String :=
  "\x7b\"add_see_links\": false, \"placeholder_description\": \"none\"\x7d"

/-- Two settings in either order, with a setting of the index or without. -/
theorem resolve_eq_of_fingerprint_descending :
    ascending.IsSuitable ∧ ascending.IsPlain ∧ descending.IsPlain ∧ ascending.IsJoined ∧
      descending.IsJoined ∧ ascending.DigestTells descending ∧
      ascending.fingerprint = .ok (Sha256.hexDigest ascendingText) ∧
      descending.fingerprint = .ok (Sha256.hexDigest ascendingText) ∧
      Value.Reordered (.map ascending.relevant) (.map descending.relevant) ∧
      ∀ doclets report, resolve ascending doclets report = resolve descending doclets report := by
  have htext : Json.canonical (.map ascending.relevant) = .ok ascendingText := by decide +kernel
  have htext' : Json.canonical (.map descending.relevant) = .ok ascendingText := by decide +kernel
  have hsuitable : ascending.IsSuitable :=
    Config.isSuitable_of_none rfl (fun _ h => ⟨_, (Option.some.inj h).symm⟩) nofun
  have hplain : ascending.IsPlain := Config.isPlain_scalars
    [("add_see_links", .bool false), ("placeholder_description", .text "none")] (by decide)
  have hplain' : descending.IsPlain := Config.isPlain_scalars
    [("placeholder_description", .text "none"), ("add_see_links", .bool false)] (by decide)
  have hnone : ∀ t, some (Value.text "none") = some (.text t) → t.IsJoined := by
    intro t ht
    cases ht
    decide
  have hjoined : ascending.IsJoined := Config.isJoined_of_none rfl rfl hnone nofun
  have hjoined' : descending.IsJoined := Config.isJoined_of_none rfl rfl hnone nofun
  have htells := Config.digestTells_of_canonical htext htext'
  have hdigest := Config.fingerprint_of_canonical htext
  have hdigest' := Config.fingerprint_of_canonical htext'
  obtain ⟨hsame, -⟩ := resolve_eq_of_fingerprint ascending descending hsuitable
  exact ⟨hsuitable, hplain, hplain', hjoined, hjoined', htells, hdigest, hdigest',
    .perm hplain.hasDistinctKeys (.swap _ _ _),
    hsame _ hplain hplain' hjoined hjoined' hdigest hdigest' htells⟩

/-- A separator in two halves. -/
def halves : Config := [(.text "default_scope_punctuation", .text [.half 0x03D, .half 0x600])]

/-- The separator that they would be together. -/
def joined : Config := [(.text "default_scope_punctuation", .text [.char '😀'])]

/-- The text of which the fingerprint of both is taken. -/
def halvesText : String := "\x7b\"default_scope_punctuation\": \"\\ud83d\\ude00\"\x7d"

/-- A member of a class, a class that extends it, and a member there that overrides the other
one. -/
def overriding : List Doclet := [
  { longname := [.char 'S', .char '😀', .char 'm'], description := { text := some "of S" } },
  { longname := "C", superclasses := ["S"] },
  { longname := "D", name := "m", memberof := some "C", codeId := some "m",
    tags := [⟨"override", none⟩] }]

theorem descriptions_halves : (resolve halves overriding none).doclets.map
    (fun d => d.description.text) = [some (Text.ofString "of S"), none, none] := by
  cbv

theorem descriptions_joined : (resolve joined overriding none).doclets.map
    (fun d => d.description.text) =
      [some (Text.ofString "of S"), none, some (Text.ofString "of S")] := by
  cbv

/-- A separator in two halves has the fingerprint of the character that they would be, and still
does not lead to a member that is named with the character. -/
theorem not_resolve_eq_of_fingerprint : ¬∀ (config config' : Config) (digest : String),
    config.IsSuitable → config'.IsSuitable → config.IsPlain → config'.IsPlain →
    config.fingerprint = .ok digest → config'.fingerprint = .ok digest →
    config.DigestTells config' →
    ∀ doclets report, resolve config doclets report = resolve config' doclets report := by
  intro hall
  -- every condition holds of the two, and still the last description differs
  have htext : Json.canonical (.map halves.relevant) = .ok halvesText := by decide +kernel
  have htext' : Json.canonical (.map joined.relevant) = .ok halvesText := by decide +kernel
  have hsuitable : halves.IsSuitable :=
    Config.isSuitable_of_none rfl nofun fun _ h => ⟨_, (Option.some.inj h).symm⟩
  have hsuitable' : joined.IsSuitable :=
    Config.isSuitable_of_none rfl nofun fun _ h => ⟨_, (Option.some.inj h).symm⟩
  have hplain : halves.IsPlain := Config.isPlain_scalars
    [("default_scope_punctuation", .text [.half 0x03D, .half 0x600])] (by decide)
  have hplain' : joined.IsPlain := Config.isPlain_scalars
    [("default_scope_punctuation", .text [.char '😀'])] (by decide)
  have hsame := hall halves joined _ hsuitable hsuitable' hplain hplain'
    (Config.fingerprint_of_canonical htext) (Config.fingerprint_of_canonical htext')
    (Config.digestTells_of_canonical htext htext') overriding none
  have hdescriptions := descriptions_halves
  rw [hsame, descriptions_joined] at hdescriptions
  cases hdescriptions

end Resolution

end DocLineage
