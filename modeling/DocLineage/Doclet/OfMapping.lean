import DocLineage.Fault
import DocLineage.Journal
import DocLineage.Text.Lower
import DocLineage.Value.Display

/-!
# Reading doclets

A doclet is read from one mapping of a dump. A field that should be a text is read as the text that
shows its value, a field that is not set as absent, and what is not of the expected shape inside a
list is passed over. The fields are read in a fixed order, so that it is clear which of two faults
stops the reading and what was of note before.

## Main definitions

* `Value.items` — what going through a value yields
* `Doclet.read` — the doclet of a mapping, and what is of note while the mapping is read
* `Dump.doclets` — the doclet mappings of a whole dump
-/

namespace DocLineage

/-- What going through a value yields: the items of a collection, the keys of a mapping, the symbols
of a text. -/
def Value.items (v : Value) : Except Fault (List Value) :=
  match v.expose with
  | .list items => .ok items
  | .pair first second => .ok [first, second]
  | .set items => .ok (items.map .scalar)
  | .map entries => .ok (entries.map fun e => .scalar e.1)
  | .scalar (.text t) => .ok (t.map fun s => .text [s])
  | .scalar (.bytes data) => .ok (data.map fun b => .int b.toNat)
  | v => .error (.notIterable v.kind)

/-- The mappings among some values. -/
def Value.mappings (items : List Value) : List Mapping := items.filterMap Value.entries?

/-- The value if it is set, otherwise another one. -/
def Value.orElse (v : Option Value) (otherwise : Value) : Value :=
  match v with
  | some v => if v.isTruthy then v else otherwise
  | none => otherwise

namespace Doclet

/-- The text of a field, empty when the field is not set. -/
def textField (m : Mapping) (name : Text) : Except Fault Text :=
  (Value.orElse (m.get? name) (.text "")).toText

/-- The text of a field that may be absent or null. -/
def optionalField (m : Mapping) (name : Text) : Except Fault (Option Text) :=
  ((m.get? name).getD .null).toText?

/-- A switch, off when it is absent. -/
def switch (m : Mapping) (name : Text) : Bool := ((m.get? name).getD .null).isTruthy

/-- The texts of a list, or of a single value; none when the value is not set. -/
def texts (v : Option Value) : Except Fault (List Text) :=
  let v := Value.orElse v (.list [])
  match v.expose with
  | .list items => items.mapM Value.toText
  | .pair first second => [first, second].mapM Value.toText
  | _ => return [← v.toText]

/-- The entries of a value that is used as a mapping; one that is not set has none. -/
def fields (v : Option Value) : Except Fault Mapping :=
  let v := Value.orElse v (.map [])
  match v.entries? with
  | some entries => .ok entries
  | none => .error (.lacks v.kind .lookup)

/-! ### Parameters -/

/-- The parameter that a mapping describes under a name. -/
def param (m : Mapping) (name : Text) : Except Fault Param := do
  return {
    name
    description := Value.ofText? (← optionalField m "description")
    synthesized := switch m "synthesized"
    raw := m }

/-- The parameters that mappings of a doclet describe, with a notice for every one that is dropped
because its name has come before. A mapping without a name describes none. -/
def paramList (longname : Text) (seen : List Text) :
    List Mapping → Except Fault (List Param) × List Notice
  | [] => (.ok [], [])
  | m :: ms =>
    match m.get? "name" with
    | none => paramList longname seen ms
    | some value =>
      if !value.isTruthy then paramList longname seen ms
      else
        match value.toText with
        | .error fault => (.error fault, [])
        | .ok name =>
          if seen.contains name then
            let rest := paramList longname seen ms
            (rest.1, .repeatedParam name longname :: rest.2)
          else
            match param m name with
            | .error fault => (.error fault, [])
            | .ok p =>
              let rest := paramList longname (name :: seen) ms
              (rest.1.map (p :: ·), rest.2)

/-- The mappings among the items of a value; one that is not set has no items. -/
def describedMappings (v : Option Value) : Except Fault (List Mapping) := do
  return Value.mappings (← (Value.orElse v (.list [])).items)

/-! ### Return values and tags -/

/-- The return value that a mapping describes. -/
def returnValue (m : Mapping) : Except Fault Return := do
  return { description := ← optionalField m "description", raw := m }

/-- The return values described in a value; null and no value at all describe none. -/
def returnValues (v : Option Value) : Except Fault (Option (List Return)) :=
  match v with
  | none | some .null => .ok none
  | some v => do return some (← (Value.mappings (← v.items)).mapM returnValue)

/-- The tag that a mapping describes, if it has a title. The value may stand under either of two
names. -/
def tag? (m : Mapping) : Except Fault (Option Tag) := do
  let title := (m.get? "title").getD .null
  if !title.isTruthy then return none
  let value := (m.get? "value" <|> m.get? "text").getD .null
  return some { title := ← title.toText, value := ← value.toText? }

/-- The tags of a mapping. An override that is recorded as a mark counts as a tag, unless the tag is
there or the code has no identity. -/
def tagList (raw : Mapping) (codeId : Option Text) : Except Fault (List Tag) := do
  let tags := (← (← describedMappings (raw.get? "tags")).mapM tag?).filterMap id
  let marked := match raw.get? "override" with
    | some (.bool true) => codeId.isSome
    | _ => false
  return if marked && !tags.any (fun t => Text.lower t.title == "override") then
    tags ++ [{ title := "override" }]
  else tags

/-! ### Doclets -/

/-- The mapping that describes the code of a doclet, and the longname of the doclet. -/
def heading (raw : Mapping) : Except Fault (Mapping × Text) := do
  let described := Value.orElse ((← fields (raw.get? "meta")).get? "code") (.map [])
  let longname ← textField raw "longname"
  match described.entries? with
  | some code => return (code, longname)
  | none => throw (.lacks described.kind .lookup)

/-- The identity of the code that a mapping describes, if it is set. -/
def codeIdentity (code : Mapping) : Except Fault (Option Text) := do
  let id := (code.get? "id").getD .null
  if id.isTruthy then return some (← id.toText) else return none

/-- The doclet of a mapping without its parameters and what is read after them. -/
def front (raw code : Mapping) (longname : Text) : Except Fault Doclet := do
  return {
    longname
    name := ← textField raw "name"
    kind := ← textField raw "kind"
    memberof := ← optionalField raw "memberof"
    scope := ← optionalField raw "scope"
    codeId := ← codeIdentity code
    description := { text := ← optionalField raw "description" }
    summary := { text := ← optionalField raw "summary" }
    classdesc := { text := ← optionalField raw "classdesc" }
    undocumented := switch raw "undocumented"
    raw }

/-- The doclet of a mapping with what is read after its parameters. -/
def back (raw code : Mapping) (d : Doclet) (params : List Param) : Except Fault Doclet := do
  return { d with
    params
    returns := ← returnValues (raw.get? "returns")
    see := ← texts (raw.get? "see")
    superclasses := ← texts (raw.get? "augments")
    paramNames := ← texts (code.get? "paramnames")
    tags := ← tagList raw d.codeId }

/-- The doclet that a mapping describes, with what is of note up to the end or the first fault:
every parameter that is dropped because its name has come before. -/
def read (raw : Mapping) : Except Fault Doclet × List Notice :=
  let beginning := do
    let (code, longname) ← heading raw
    let d ← front raw code longname
    return (code, d, ← describedMappings (raw.get? "params"))
  match beginning with
  | .error fault => (.error fault, [])
  | .ok (code, d, described) =>
    let (params, notices) := paramList d.longname [] described
    (params >>= back raw code d, notices)

/-- The doclet that a mapping describes. -/
def ofMapping (raw : Mapping) : Except Fault Doclet := (read raw).1

/-- What is of note while a mapping is read. -/
def readingNotices (raw : Mapping) : List Notice := (read raw).2

end Doclet

namespace Dump

/-- The doclet mappings of a dump: of the value itself, or of the list that a mapping holds. -/
def doclets (doc : Value) : Except Fault (List Mapping) :=
  let found := match doc.entries? with
    | some entries => entries.get? "doclets"
    | none => some doc
  Doclet.describedMappings found

/-- The doclets of some mappings, with what is of note up to the end or the first fault. -/
def read : List Mapping → Except Fault (List Doclet) × List Notice
  | [] => (.ok [], [])
  | m :: ms =>
    match Doclet.read m with
    | (.error fault, notices) => (.error fault, notices)
    | (.ok d, notices) =>
      let rest := read ms
      (rest.1.map (d :: ·), notices ++ rest.2)

end Dump

end DocLineage
