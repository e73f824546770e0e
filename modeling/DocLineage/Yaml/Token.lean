import DocLineage.Text.Symbol

/-!
# YAML tokens

## Main definitions

* `Yaml.TagName` — how the type of a node is spelled
* `Yaml.Token` — the pieces of a YAML stream
-/

namespace DocLineage.Yaml

/-- The spelling of a type: a suffix, after a handle unless it is written out. -/
structure TagName where
  handle : Option String
  suffix : String
deriving DecidableEq, Repr

/-- The pieces of a YAML stream. Block collections have no marks of their own in the text; their
starts and ends follow from the indentation. -/
inductive Token where
  | versionDirective (major : Nat)
  | tagDirective (handle start : String)
  | otherDirective
  | documentStart | documentEnd | streamEnd
  | blockSequenceStart | blockMappingStart | blockEnd
  | flowSequenceStart | flowSequenceEnd | flowMappingStart | flowMappingEnd
  | blockEntry | flowEntry | key | value
  | alias (name : String)
  | anchor (name : String)
  | tag (name : TagName)
  | scalar (text : Text) (plain : Bool)
deriving DecidableEq, Repr

end DocLineage.Yaml
