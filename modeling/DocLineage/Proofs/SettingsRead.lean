import DocLineage.Resolution.Resolve
import Mathlib

/-!
# What a run reads of its configuration

A run reads a few settings under fixed names, and the separators only by looking one up for a scope.
Configurations in which all this is the same are exchangeable: whatever the doclets, the outcome is
the same, be it an error or not. Settings need not be the same values for that. It is enough that
the values under the names are alike: of one kind, set or not set alike, the same text where a text
is read, and alike again under the names that are looked up in them.

## Main definitions

* `Settings.reading` — what a run reads of its settings
* `Config.Reads` — the texts that are read of a configuration
* `Config.IsSuitable` — separators and placeholder are texts
* `Value.Likeness` — relations of values that can be exchanged for one another

## Main results

* `Resolution.resolve_congr` — a run depends on nothing but what it reads
* `Value.Likeness.reading_eq` — the same is read of configurations with values that are alike
-/

namespace DocLineage

/-! ### Reading settings -/

/-- What a run reads of its settings: the separators are looked up by scope. -/
structure Reading where
  titles : Titles
  addsSeeLinks : Bool
  skipsUndocumented : Bool
  placeholder : Value
  separatorOf : Except Fault (Option Text → Value)

/-- What a run reads of its settings. -/
def Settings.reading (s : Settings) : Reading where
  titles := s.titles
  addsSeeLinks := s.addsSeeLinks
  skipsUndocumented := s.skipsUndocumented
  placeholder := s.placeholder
  separatorOf := s.separators.map Separators.of

/-- Two readings are the same fault, or two results that are read alike. -/
theorem exists_of_map_eq {α β : Type} {f : α → β} {x y : Except Fault α} (h : x.map f = y.map f) :
    (∃ fault, x = .error fault ∧ y = .error fault) ∨ ∃ a b, x = .ok a ∧ y = .ok b ∧ f a = f b := by
  cases x with
  | error fault =>
    cases y with
    | error fault' =>
      cases h
      exact Or.inl ⟨fault, rfl, rfl⟩
    | ok b => cases h
  | ok a =>
    cases y with
    | error fault' => cases h
    | ok b => exact Or.inr ⟨a, b, rfl, rfl, Except.ok.inj h⟩

section Runs

variable {s s' : Settings}

/-- Settings of which the same is read differ in their separators only, and in those not for any
scope. -/
theorem Settings.eq_of_reading (h : s.reading = s'.reading) :
    s' = { s with separators := s'.separators } ∧
      s.separators.map Separators.of = s'.separators.map Separators.of := by
  obtain ⟨titles, links, skips, placeholder, separators⟩ := s
  obtain ⟨titles', links', skips', placeholder', separators'⟩ := s'
  simp only [Settings.reading, Reading.mk.injEq] at h
  obtain ⟨rfl, rfl, rfl, rfl, h⟩ := h
  exact ⟨rfl, h⟩

namespace Run

theorem applyTags_congr (h : s.reading = s'.reading) (r : Run) (id : DocletId) :
    r.applyTags s id = r.applyTags s' id := by
  rw [(Settings.eq_of_reading h).1]
  rfl

theorem receive_congr (h : s.reading = s'.reading) (r : Run) (id : DocletId) :
    r.receive s id = r.receive s' id := by
  rw [(Settings.eq_of_reading h).1]
  rfl

theorem isSkipped_congr (h : s.reading = s'.reading) (d : Doclet) :
    isSkipped s d = isSkipped s' d := by
  rw [(Settings.eq_of_reading h).1]
  rfl

/-- An override is expanded alike: of the separators only the one for the scope is asked for. -/
theorem expand_congr (h : s.reading = s'.reading) (r : Run) (id : DocletId) :
    r.expand s id = r.expand s' id := by
  obtain ⟨hsettings, hseparators⟩ := Settings.eq_of_reading h
  have hmember : ∀ separator, declareMember s separator id = declareMember s' separator id := by
    intro separator
    rw [hsettings]
    rfl
  unfold expand
  dsimp only
  -- without an enclosing class the separators are not even asked for
  cases enclosingClass? _ id with
  | none => rfl
  | some enclosing =>
    rcases exists_of_map_eq hseparators with
      ⟨fault, hs, hs'⟩ | ⟨separators, separators', hs, hs', hof⟩
    · rw [hs, hs']
    · rw [hs, hs']
      dsimp only
      rw [hof]
      simp only [hmember]

theorem feed_congr (h : s.reading = s'.reading) (r : Run) (id : DocletId) :
    r.feed s id = r.feed s' id := by
  unfold feed arrive
  rw [applyTags_congr h]
  simp only [expand_congr h, receive_congr h]

theorem feedAll_congr (h : s.reading = s'.reading) (r : Run) (ids : List DocletId) :
    r.feedAll s ids = r.feedAll s' ids := by
  induction ids generalizing r with
  | nil => rfl
  | cons id ids ih =>
    unfold feedAll
    simp only [isSkipped_congr h, feed_congr h, ih]

end Run

/-- A run depends on nothing but what it reads of its configuration. -/
theorem Resolution.resolve_congr {config config' : Config}
    (h : (Settings.ofConfig config).map Settings.reading =
      (Settings.ofConfig config').map Settings.reading) (doclets : List Doclet)
    (report : Option Report) : resolve config doclets report = resolve config' doclets report := by
  unfold resolve runAll
  rcases exists_of_map_eq h with ⟨fault, hs, hs'⟩ | ⟨s, s', hs, hs', hreading⟩
  · rw [hs, hs']
  · rw [hs, hs']
    dsimp only
    rw [Run.feedAll_congr hreading]

end Runs

/-! ### Reading configurations -/

namespace Config

/-- The names under which the titles of the inheritance tags stand. -/
def titleNames : List Text := ["inheritparams", "inheritdoc", "override"]

/-- The names under which a run looks settings up. -/
def settingNames : List Text :=
  ["tags", "placeholder_description", "scope_punctuation", "default_scope_punctuation",
    "skip_undocumented", "add_see_links"]

/-- The texts that a run reads of a configuration. -/
inductive Reads (config : Config) : Text → Prop
  | title {v : Value} {titles : Mapping} {name t : Text} (htags : config.get? "tags" = some v)
      (htitles : v.entries? = some titles) (hname : name ∈ titleNames)
      (ht : titles.get? name = some (.text t)) : Reads config t
  | placeholder {t : Text} (ht : config.get? "placeholder_description" = some (.text t)) :
      Reads config t
  | otherwise {t : Text} (ht : config.get? "default_scope_punctuation" = some (.text t)) :
      Reads config t
  | scope {v w : Value} {byScope : Mapping} {scope : Text}
      (hseparators : config.get? "scope_punctuation" = some v)
      (hbyScope : v.entries? = some byScope) (hscope : byScope.get? scope = some w) :
      Reads config scope
  | separator {v : Value} {byScope : Mapping} {scope t : Text}
      (hseparators : config.get? "scope_punctuation" = some v)
      (hbyScope : v.entries? = some byScope) (hscope : byScope.get? scope = some (.text t)) :
      Reads config t

/-- The separators and the placeholder of a configuration are texts. -/
structure IsSuitable (config : Config) : Prop where
  placeholder : ∀ v, config.get? "placeholder_description" = some v → ∃ t, v = .text t
  otherwise : ∀ v, config.get? "default_scope_punctuation" = some v → ∃ t, v = .text t
  separator : ∀ v byScope scope w, config.get? "scope_punctuation" = some v →
    v.entries? = some byScope → byScope.get? scope = some w → ∃ t, w = .text t

end Config

/-- A relation between values that can be exchanged for one another in a configuration, as far as
the texts that are read of them can be told apart when they differ. -/
structure Value.Likeness (R : Value → Value → Prop) (Told : Text → Text → Prop) : Prop where
  symm : ∀ {v w}, R v w → R w v
  told_symm : ∀ {s t}, Told s t → Told t s
  kind : ∀ {v w}, R v w → v.kind = w.kind
  isTruthy : ∀ {v w}, R v w → v.isTruthy = w.isTruthy
  text : ∀ {s w}, R (.text s) w → ∃ t, w = .text t ∧ (Told s t → s = t)
  entries : ∀ {v w es}, R v w → v.entries? = some es →
    ∃ es', w.entries? = some es' ∧ R (.map es) (.map es')
  get? : ∀ {es es' name v}, R (.map es) (.map es') →
    (∀ k w, Mapping.get? es' k = some w → Told name k) → Mapping.get? es name = some v →
      ∃ w, Mapping.get? es' name = some w ∧ R v w
  names : ∀ {name} k, name ∈ Config.titleNames ++ Config.settingNames → Told name k

namespace Value.Likeness

variable {R : Value → Value → Prop} {Told : Text → Text → Prop} {es es' : Mapping} {name : Text}
  {x y : Option Value} {v w : Value}

/-- What is found under a name that is told from all keys of the other mapping is alike. -/
theorem rel_get? (hlike : Likeness R Told) (h : R (.map es) (.map es'))
    (hkeys : ∀ v k w, es.get? name = some v → es'.get? k = some w → Told name k)
    (hkeys' : ∀ v k w, es'.get? name = some v → es.get? k = some w → Told name k) :
    Option.Rel R (es.get? name) (es'.get? name) := by
  cases hv : es.get? name with
  | some v =>
    obtain ⟨w, hw, hvw⟩ := hlike.get? h (fun k w => hkeys v k w hv) hv
    rw [hw]
    exact .some hvw
  | none =>
    cases hw : es'.get? name with
    | none => exact .none
    | some w =>
      obtain ⟨v, hv', -⟩ := hlike.get? (hlike.symm h) (fun k v => hkeys' w k v hw) hw
      rw [hv] at hv'
      cases hv'

/-- What is found under one of the fixed names is alike. -/
theorem rel_name (hlike : Likeness R Told) (h : R (.map es) (.map es'))
    (hname : name ∈ Config.titleNames ++ Config.settingNames) :
    Option.Rel R (es.get? name) (es'.get? name) :=
  hlike.rel_get? h (fun _ k _ _ _ => hlike.names k hname) (fun _ k _ _ _ => hlike.names k hname)

theorem rel_entries? (hlike : Likeness R Told) (h : R v w) :
    Option.Rel (fun es es' => R (.map es) (.map es')) v.entries? w.entries? := by
  cases hes : v.entries? with
  | some es =>
    obtain ⟨es', hes', hmap⟩ := hlike.entries h hes
    rw [hes']
    exact .some hmap
  | none =>
    cases hes' : w.entries? with
    | none => exact .none
    | some es' =>
      obtain ⟨es, hes'', -⟩ := hlike.entries (hlike.symm h) hes'
      rw [hes] at hes''
      cases hes''

/-- Texts that are alike and told apart are the same. -/
theorem eq_of_rel (hlike : Likeness R Told) (h : Option.Rel R x y)
    (htext : ∀ v, x = some v → ∃ s, v = .text s)
    (htold : ∀ s t, x = some (.text s) → y = some (.text t) → Told s t) : x = y := by
  cases h with
  | none => rfl
  | some h =>
    obtain ⟨s, rfl⟩ := htext _ rfl
    obtain ⟨t, rfl, heq⟩ := hlike.text h
    rw [heq (htold s t rfl rfl)]

/-- A title is read alike. -/
theorem title_eq (hlike : Likeness R Told) (h : R (.map es) (.map es'))
    (hname : name ∈ Config.titleNames)
    (htold : ∀ s t, es.get? name = some (.text s) → es'.get? name = some (.text t) → Told s t) :
    Config.title es name = Config.title es' name := by
  have hrel := hlike.rel_name h (List.mem_append_left _ hname)
  unfold Config.title
  generalize es.get? name = x at hrel htold
  generalize es'.get? name = y at hrel htold
  cases hrel with
  | none => rfl
  | @some v w hvw =>
    by_cases htext : ∃ s, v = .text s
    · obtain ⟨s, rfl⟩ := htext
      obtain ⟨t, rfl, heq⟩ := hlike.text hvw
      rw [heq (htold s t rfl rfl)]
    · -- neither is a text, and the fault names the kind
      have htext' : ¬∃ t, w = .text t := by
        rintro ⟨t, rfl⟩
        obtain ⟨s, rfl, -⟩ := hlike.text (hlike.symm hvw)
        exact htext ⟨s, rfl⟩
      simp only [Option.getD_some]
      split
      · next _ s => exact absurd ⟨s, rfl⟩ htext
      · split
        · next _ t => exact absurd ⟨t, rfl⟩ htext'
        · rw [hlike.kind hvw]

variable {config config' : Config}

/-- The mappings under a name are both missing or unsuitable, or both there and alike. -/
theorem rel_asMapping (hlike : Likeness R Told) (h : R (.map config) (.map config')) (name : Text)
    (hname : name ∈ Config.settingNames) :
    (∃ fault, Config.asMapping (config.get name (.map [])) = .error fault ∧
      Config.asMapping (config'.get name (.map [])) = .error fault) ∨
    ∃ es es', Config.asMapping (config.get name (.map [])) = .ok es ∧
      Config.asMapping (config'.get name (.map [])) = .ok es' ∧
      (es = [] ∧ es' = [] ∨ ∃ v v', config.get? name = some v ∧ v.entries? = some es ∧
        config'.get? name = some v' ∧ v'.entries? = some es' ∧ R (.map es) (.map es')) := by
  have hrel := hlike.rel_name h (List.mem_append_right _ hname)
  unfold Config.get
  generalize Mapping.get? config name = x at hrel
  generalize Mapping.get? config' name = y at hrel
  cases hrel with
  | none => exact Or.inr ⟨[], [], rfl, rfl, Or.inl ⟨rfl, rfl⟩⟩
  | @some v w hvw =>
    -- a value that is no mapping is a fault that names its kind, which both have
    have hentries := hlike.rel_entries? hvw
    have hkind := hlike.kind hvw
    simp only [Option.getD_some, Config.asMapping]
    cases hes : v.entries? with
    | none =>
      cases hes' : w.entries? with
      | none => exact Or.inl ⟨_, rfl, by rw [hkind]⟩
      | some es' =>
        rw [hes, hes'] at hentries
        cases hentries
    | some es =>
      cases hes' : w.entries? with
      | none =>
        rw [hes, hes'] at hentries
        cases hentries
      | some es' =>
        rw [hes, hes'] at hentries
        cases hentries with
        | some hmap => exact Or.inr ⟨es, es', rfl, rfl, Or.inr ⟨v, w, rfl, hes, rfl, hes', hmap⟩⟩

/-- The titles are read alike. -/
theorem titles_eq (hlike : Likeness R Told) (h : R (.map config) (.map config'))
    (htold : ∀ s t, config.Reads s → config'.Reads t → Told s t) :
    config.titles = config'.titles := by
  unfold Config.titles
  rcases hlike.rel_asMapping h "tags" (by decide) with ⟨fault, hes, hes'⟩ |
    ⟨es, es', hes, hes', ⟨rfl, rfl⟩ | ⟨v, v', hv, hentries, hv', hentries', hmap⟩⟩
  · rw [hes, hes']
  · rw [hes, hes']
  · have htitle : ∀ name ∈ Config.titleNames, Config.title es name = Config.title es' name :=
      fun name hname => hlike.title_eq hmap hname fun s t hs ht =>
        htold s t (.title hv hentries hname hs) (.title hv' hentries' hname ht)
    rw [hes, hes']
    simp only [bind, Except.bind]
    rw [htitle _ (by decide), htitle _ (by decide), htitle _ (by decide)]

/-- The text that is read under a name, or stands in for a missing one, is the same. -/
theorem get_eq (hlike : Likeness R Told) (h : R (.map config) (.map config')) (name : Text)
    (hname : name ∈ Config.settingNames)
    (htext : ∀ v, config.get? name = some v → ∃ s, v = .text s)
    (htold : ∀ s t, config.get? name = some (.text s) → config'.get? name = some (.text t) →
      Told s t) (otherwise : Value) : config.get name otherwise = config'.get name otherwise := by
  have hrel := hlike.rel_name h (List.mem_append_right _ hname)
  unfold Config.get
  rw [hlike.eq_of_rel hrel htext htold]

/-- A switch is read alike. -/
theorem isTruthy_get_eq (hlike : Likeness R Told) (h : R (.map config) (.map config'))
    (name : Text) (hname : name ∈ Config.settingNames) (otherwise : Value) :
    (config.get name otherwise).isTruthy = (config'.get name otherwise).isTruthy := by
  have hrel := hlike.rel_name h (List.mem_append_right _ hname)
  unfold Config.get
  generalize Mapping.get? config name = x at hrel
  generalize Mapping.get? config' name = y at hrel
  cases hrel with
  | none => rfl
  | some hvw => exact hlike.isTruthy hvw

/-- The separators are looked up alike. -/
theorem separators_eq (hlike : Likeness R Told) (h : R (.map config) (.map config'))
    (hsuitable : config.IsSuitable) (htold : ∀ s t, config.Reads s → config'.Reads t → Told s t) :
    config.separators.map Separators.of = config'.separators.map Separators.of := by
  have hotherwise : config.get "default_scope_punctuation" (.text "#") =
      config'.get "default_scope_punctuation" (.text "#") :=
    hlike.get_eq h "default_scope_punctuation" (by decide) hsuitable.otherwise
      (fun s t hs ht => htold s t (.otherwise hs) (.otherwise ht)) _
  unfold Config.separators
  rcases hlike.rel_asMapping h "scope_punctuation" (by decide) with ⟨fault, hes, hes'⟩ |
    ⟨es, es', hes, hes', ⟨rfl, rfl⟩ | ⟨v, v', hv, hentries, hv', hentries', hmap⟩⟩
  · rw [hes, hes']
    rfl
  · rw [hes, hes', hotherwise]
  · have hlookup : ∀ scope, es.get? scope = es'.get? scope := by
      intro scope
      -- a scope with a separator in one of the two is told from the scopes of the other one
      have hrel : Option.Rel R (es.get? scope) (es'.get? scope) :=
        hlike.rel_get? hmap
          (fun w k w' hw hk => htold scope k (.scope hv hentries hw) (.scope hv' hentries' hk))
          (fun w k w' hw hk => hlike.told_symm
            (htold k scope (.scope hv hentries hk) (.scope hv' hentries' hw)))
      refine hlike.eq_of_rel hrel (fun w hw => hsuitable.separator v es scope w hv hentries hw) ?_
      exact fun s t hs ht =>
        htold s t (.separator hv hentries hs) (.separator hv' hentries' ht)
    have hof : Separators.of ⟨es, config.get "default_scope_punctuation" (.text "#")⟩ =
        Separators.of ⟨es', config'.get "default_scope_punctuation" (.text "#")⟩ := by
      funext scope
      simp only [Separators.of, hlookup, hotherwise]
    rw [hes, hes']
    exact congrArg Except.ok hof

/-- The same is read of configurations with values that are alike. -/
theorem reading_eq (hlike : Likeness R Told) (h : R (.map config) (.map config'))
    (hsuitable : config.IsSuitable) (htold : ∀ s t, config.Reads s → config'.Reads t → Told s t) :
    (Settings.ofConfig config).map Settings.reading =
      (Settings.ofConfig config').map Settings.reading := by
  unfold Settings.ofConfig
  rw [hlike.titles_eq h htold, hlike.isTruthy_get_eq h "add_see_links" (by decide),
    hlike.isTruthy_get_eq h "skip_undocumented" (by decide),
    hlike.get_eq h "placeholder_description" (by decide) hsuitable.placeholder fun s t hs ht => htold s t (.placeholder hs) (.placeholder ht)]
  cases config'.titles with
  | error fault => rfl
  | ok titles =>
    have hseparators := hlike.separators_eq h hsuitable htold
    simp only [bind, Except.bind, pure, Except.pure, Except.map, Settings.reading] at hseparators ⊢
    rw [hseparators]

end Value.Likeness

end DocLineage
