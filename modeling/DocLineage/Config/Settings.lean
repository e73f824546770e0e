import DocLineage.Config.Basic
import DocLineage.Text.Lower

/-!
# Settings of a run

What a resolution run reads from its configuration, with the titles of the inheritance tags
checked. The separators are checked only when an override is expanded.

## Main definitions

* `Separators` — the texts that join a member to its class, by scope
* `Titles` — the lower-cased titles of the three inheritance tags
* `Settings` — everything that a run reads
* `Settings.ofConfig` — the settings of a configuration
* `Settings.standard` — the settings without a user's file
-/

namespace DocLineage

/-- The values that join a member to its class: one per scope, and one for all other scopes. -/
structure Separators where
  byScope : Mapping
  otherwise : Value

/-- The value that joins a member of the scope to its class; no scope counts as the empty one. -/
def Separators.of (s : Separators) (scope : Option Text) : Value :=
  (s.byScope.get? (scope.getD [])).getD s.otherwise

/-- The separators of a configuration. -/
def Config.separators (config : Config) : Except Fault Separators := do
  let byScope ← asMapping (config.get "scope_punctuation" (.map []))
  return ⟨byScope, config.get "default_scope_punctuation" (.text "#")⟩

/-- The titles of the three inheritance tags, in lower case. -/
structure Titles where
  inheritParams : Text
  inheritDoc : Text
  override : Text
deriving DecidableEq, Repr

/-- The lower-cased title under a name, which is its own default. -/
def Config.title (titles : Mapping) (name : Text) : Except Fault Text :=
  match (titles.get? name).getD (.text name) with
  | .text t => .ok (Text.lower t)
  | v => .error (.lacks v.kind .lowering)

/-- The titles of a configuration. -/
def Config.titles (config : Config) : Except Fault Titles := do
  let titles ← asMapping (config.get "tags" (.map []))
  return {
    inheritParams := ← title titles "inheritparams"
    inheritDoc := ← title titles "inheritdoc"
    override := ← title titles "override" }

/-- Everything that a resolution run reads from its configuration. -/
structure Settings where
  titles : Titles
  /-- Full inheritance leaves a link to the ancestor. -/
  addsSeeLinks : Bool
  /-- Doclets without a comment of their own take no part. -/
  skipsUndocumented : Bool
  /-- The description of a parameter that no one documents. -/
  placeholder : Value
  separators : Except Fault Separators

/-- The settings of a configuration; unsuitable titles are a fault. -/
def Settings.ofConfig (config : Config) : Except Fault Settings := do
  return {
    titles := ← config.titles
    addsSeeLinks := (config.get "add_see_links" (.bool true)).isTruthy
    skipsUndocumented := (config.get "skip_undocumented" (.bool true)).isTruthy
    placeholder := config.get "placeholder_description" (.text "undocumented")
    separators := config.separators }

/-- The settings without a user's file. -/
def Settings.standard : Settings where
  titles := { inheritParams := "inheritparams", inheritDoc := "inheritdoc", override := "override" }
  addsSeeLinks := true
  skipsUndocumented := true
  placeholder := .text "undocumented"
  separators := Config.defaults.separators

theorem Settings.ofConfig_defaults : Settings.ofConfig Config.defaults = .ok .standard := rfl

end DocLineage
