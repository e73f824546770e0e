import DocLineage.Doclet.Basic
import DocLineage.Text.Quoted

/-!
# The journal of a run

Everything of note that happens while dumps are read and resolved. A notice records what happened;
its level, its channel and its wording are derived from it.

## Main definitions

* `TagProblem` — why a tag was ignored
* `Notice` — something that happened
* `Notice.level`, `Notice.channel`, `Notice.message` — how it is reported
-/

namespace DocLineage

/-- Why a tag was ignored. -/
inductive TagProblem where
  | needsValue
  | refusesValue
deriving DecidableEq, Repr

/-- The wording of a problem. -/
def TagProblem.message : TagProblem → String
  | .needsValue => "requires a value"
  | .refusesValue => "does not take a value"

/-- How much attention a notice deserves. -/
inductive Level where
  | debug | info | warning
deriving DecidableEq, Repr

/-- The name of a level. -/
def Level.label : Level → String
  | .debug => "DEBUG"
  | .info => "INFO"
  | .warning => "WARNING"

/-- Something that happened while dumps were read and resolved. A doclet appears by its label, which
is absent when it has neither a longname nor a code identity. -/
inductive Notice where
  | repeatedParam (name longname : Text)
  | resolving (doclets files : Nat)
  | inherits (dependent : Option Text) (mode : InheritMode) (ancestor : Text)
  | overrideFound (title name codeId : Text)
  | tagIgnored (title : Text) (doclet : Option Text) (problem : TagProblem)
  | noEnclosingClass (memberof : Option Text) (doclet : Text)
  | anonymousCompleted (codeId : Option Text)
  | completed (longname : Text)
  | woken (dependent : Option Text) (ancestor : Text)
  | merging (ancestor : Text) (dependent : Option Text)
  | unresolvedAtEnd (ancestors : List Text)
deriving DecidableEq, Repr

namespace Notice

/-- The text of a name that may be absent. -/
def nameText (name : Option Text) : Text := name.getD "None"

/-- How much attention the notice deserves. -/
def level : Notice → Level
  | tagIgnored .. | noEnclosingClass .. => .warning
  | resolving .. => .info
  | _ => .debug

/-- The part of the program that the notice comes from. -/
def channel : Notice → String
  | repeatedParam .. => "doclet_inherit.load_doclets"
  | resolving .. => "doclet_inherit.run_resolution"
  | overrideFound .. => "doclet_inherit.inherit_tags"
  | tagIgnored .. => "doclet_inherit.tag_dictionary"
  | noEnclosingClass .. => "doclet_inherit.override_expander"
  | merging .. => "doclet_inherit.inheritance_resolver"
  | inherits .. | anonymousCompleted .. | completed .. | woken .. | unresolvedAtEnd .. =>
    "doclet_inherit.dependency_registry"

/-- The wording of the notice. -/
def message : Notice → Text
  | repeatedParam name longname => "Duplicate @param " ++ name ++ " on " ++ longname ++ " dropped"
  | resolving doclets files =>
    "Resolving " ++ toString doclets ++ " doclets from " ++ toString files ++ " file(s)"
  | inherits dependent mode ancestor =>
    nameText dependent ++ " inherits (" ++ mode.label ++ ") from " ++ ancestor
  | overrideFound title name codeId => "@" ++ title ++ " found: " ++ name ++ " (" ++ codeId ++ ")"
  | tagIgnored title doclet problem =>
    "@" ++ title ++ " on " ++ nameText doclet ++ " " ++ problem.message ++ "; ignoring"
  | noEnclosingClass memberof doclet =>
    "Could not find enclosing class " ++ (memberof.map Text.quoted).getD "None" ++
      " for override on " ++ doclet ++ "; ignoring"
  | anonymousCompleted codeId => "Anonymous doclet " ++ nameText codeId ++ " completed"
  | completed longname => "Completed: " ++ longname
  | woken dependent ancestor => nameText dependent ++ " was waiting on " ++ ancestor
  | merging ancestor dependent => "Merging " ++ ancestor ++ " into " ++ nameText dependent
  | unresolvedAtEnd ancestors =>
    "Run ended with " ++ toString ancestors.length ++ " unresolved ancestor(s): " ++
      Text.join ", " ancestors

/-- The notice on one line, after its level and its channel. -/
def line (n : Notice) : Text := n.level.label ++ " " ++ n.channel ++ ": " ++ n.message

end Notice

end DocLineage
