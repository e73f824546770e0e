import DocLineage.Digest.Sha256
import DocLineage.Json.Writer
import DocLineage.Value.Overlay

/-!
# Configurations

A configuration is a mapping: the defaults with the user's mapping laid over them. Settings are
looked up in it when they are needed, so that an unsuitable value matters only where it is used.

## Main definitions

* `Config.defaults` — the settings without a user's file
* `Config.layer` — a user's value laid over a configuration
* `Config.fingerprint` — a digest of all settings that can change what is resolved
-/

namespace DocLineage

/-- A configuration: settings by name. -/
abbrev Config := Mapping

namespace Config

/-- The settings without a user's file: the titles of the three inheritance tags, the text of a
placeholder, the separators between a class and its members, and the switches. -/
def defaults : Config := [
  (.text "tags", .map [
    (.text "inheritparams", .text "inheritparams"),
    (.text "inheritdoc", .text "inheritdoc"),
    (.text "override", .text "override")]),
  (.text "placeholder_description", .text "undocumented"),
  (.text "scope_punctuation", .map [
    (.text "static", .text "."),
    (.text "inner", .text "~"),
    (.text "instance", .text "#")]),
  (.text "default_scope_punctuation", .text "#"),
  (.text "skip_undocumented", .bool true),
  (.text "add_see_links", .bool true),
  (.text "index_kinds", .list [.text "class", .text "namespace"])]

/-- The value of a setting, or the value that stands in for a missing one. -/
def get (config : Config) (name : Text) (otherwise : Value) : Value :=
  (Mapping.get? config name).getD otherwise

/-- The configuration with a user's value laid over it, which has to be a mapping. -/
def layer (config : Config) (update : Value) : Except Fault Config :=
  match update.entries? with
  | some entries =>
    match Mapping.overlay config entries with
    | some merged => .ok merged
    | none => .error .endless
  | none => .error (.lacks update.kind .entries)

/-- The entries of a value that is used as a mapping. -/
def asMapping (v : Value) : Except Fault Mapping :=
  match v.entries? with
  | some entries => .ok entries
  | none => .error (.lacks v.kind .lookup)

/-- The settings that shape only what is written after resolution. -/
def isOutputOnly (name : Scalar) : Bool := name == .text "index_kinds"

/-- The settings that can change what is resolved. -/
def relevant (config : Config) : Config := config.filter fun e => !isOutputOnly e.1

/-- A digest of the relevant settings. The order of keys does not matter. -/
def fingerprint (config : Config) : Except Fault String := do
  return Sha256.hexDigest (← Json.canonical (.map (relevant config)))

end Config

end DocLineage
