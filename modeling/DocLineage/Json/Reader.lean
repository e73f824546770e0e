import DocLineage.Json.Token

/-!
# Reading JSON

A list of tokens is read with a stack of the lists and mappings that are still open. Of a key that
is given twice, the first place and the last value count.

## Main definitions

* `Json.Frame` — a list or a mapping that is still open
* `Json.Expect` — what may come next
* `Json.parse` — the value of a text
-/

namespace DocLineage.Json

/-- A list or a mapping that is still open; the items of a list are kept in reverse. -/
inductive Frame where
  | list (items : List Value)
  | map (entries : Mapping) (key : Text)

/-- What may come next. -/
inductive Expect where
  | value
  /-- A value, or the end of a list that has just been opened. -/
  | firstItem
  /-- A key, or the end of a mapping that has just been opened. -/
  | firstKey
  | key (entries : Mapping)
  | colon (entries : Mapping) (key : Text)
  /-- What follows a value that is complete. -/
  | next (v : Value)

/-- Reads tokens up to the end of the outermost value, after which nothing may come. -/
def read (stack : List Frame) : Expect → List Token → Except Fault Value
  | .next v, [] => if stack.isEmpty then .ok v else .error .malformedJson
  | _, [] => .error .malformedJson
  | .next v, t :: ts =>
    match stack, t with
    | .list items :: stack, .comma => read (.list (v :: items) :: stack) .value ts
    | .list items :: stack, .closeList => read stack (.next (.list (v :: items).reverse)) ts
    | .map entries key :: stack, .comma => read stack (.key (Mapping.set entries key v)) ts
    | .map entries key :: stack, .closeMap =>
      read stack (.next (.map (Mapping.set entries key v))) ts
    | _, _ => .error .malformedJson
  | .key entries, .scalar (.text key) :: ts => read stack (.colon entries key) ts
  | .firstKey, .scalar (.text key) :: ts => read stack (.colon [] key) ts
  | .firstKey, .closeMap :: ts => read stack (.next (.map [])) ts
  | .firstItem, .closeList :: ts => read (stack.drop 1) (.next (.list [])) ts
  | .colon entries key, .colon :: ts => read (.map entries key :: stack) .value ts
  | .value, t :: ts | .firstItem, t :: ts =>
    match t with
    | .scalar s => read stack (.next (.scalar s)) ts
    | .oversized digits => .error (.oversizedInteger digits)
    | .openList => read (.list [] :: stack) .firstItem ts
    | .openMap => read stack .firstKey ts
    | _ => .error .malformedJson
  | _, _ :: _ => .error .malformedJson

/-- The value of a JSON text. Of two faults the one that comes first in the text counts. -/
def parse (s : String) : Except Fault Value :=
  let (tokens, fault) := tokens s
  let outcome := read [] .value tokens
  match outcome, fault with
  | .error (.oversizedInteger digits), _ => .error (.oversizedInteger digits)
  | _, some fault => .error fault
  | outcome, none => outcome

end DocLineage.Json
