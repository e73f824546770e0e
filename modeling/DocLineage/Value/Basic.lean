import DocLineage.Number.Binary64
import DocLineage.Text.Symbol
import DocLineage.Value.Moment

/-!
# Dynamic values

What a dump or a configuration holds before it is given a meaning: scalars and collections, of which
mappings keep the order in which their keys were first written. Only a scalar can be a key. Two keys
are the same when they are equal as numbers, as instants, or as they stand, so that `1`, `1.0` and
`true` name one entry.

A collection may be part of itself. Such a collection is tied by a knot: it has a name, and where it
comes back inside of itself there is only the name. Exposing a collection unties its knot once, so
that its parts can be looked at one by one.

## Main definitions

* `Scalar`, `Value`, `Mapping` — the values
* `Scalar.SameKey` — when two scalars name the same entry
* `Mapping.find?`, `Mapping.insert` — the entry of a key, and a mapping with an entry set
* `Value.expose` — a value that is no knot, with the same parts
* `Value.isTruthy` — the values that count as set
* `Value.Kind` — the kinds of value that faults speak of
-/

namespace DocLineage

/-- A value without parts. -/
inductive Scalar where
  | null
  | bool (b : Bool)
  | int (n : Int)
  | float (x : Binary64)
  | text (t : Text)
  | moment (m : Moment)
  | bytes (data : List UInt8)
deriving DecidableEq, Repr, Inhabited

/-- The kinds of value that faults speak of. -/
inductive Value.Kind where
  | null | bool | int | float | text | date | time | bytes | list | pair | set | map
deriving DecidableEq, Repr

/-- A value of a dump or a configuration. The keys of a mapping are distinct as keys and stand in
the order in which they were first written. -/
inductive Value where
  | scalar (s : Scalar)
  | list (items : List Value)
  /-- An entry of a list of entries. -/
  | pair (first second : Value)
  | set (items : List Scalar)
  | map (entries : List (Scalar × Value))
  /-- A collection that is part of itself, under a name. -/
  | knot (name : Nat) (body : Value)
  /-- The collection of the name, inside of it. -/
  | again (name : Nat) (kind : Value.Kind)
deriving Repr

/-- The entries of a mapping, in order. -/
abbrev Mapping := List (Scalar × Value)

namespace Scalar

/-- What a scalar is looked up by. -/
inductive KeyForm where
  | number (n : Int)
  | instant (microseconds : Int)
  | other (s : Scalar)
deriving DecidableEq, Repr

/-- The form under which a scalar is looked up: a truth value or a whole floating-point number is
the integer it equals, and a time with an offset is an instant. -/
def keyForm : Scalar → KeyForm
  | bool b => .number (if b then 1 else 0)
  | int n => .number n
  | float x =>
    match x.toInt? with
    | some n => .number n
    | none => .other (float x)
  | moment m =>
    match m.instant? with
    | some n => .instant n
    | none => .other (moment m)
  | s => .other s

/-- Two scalars name the same entry of a mapping. -/
def SameKey (a b : Scalar) : Prop := a.keyForm = b.keyForm

instance : DecidableRel SameKey := fun a b =>
  inferInstanceAs (Decidable (a.keyForm = b.keyForm))

@[simp] theorem sameKey_refl (a : Scalar) : SameKey a a := rfl

theorem SameKey.symm {a b : Scalar} (h : SameKey a b) : SameKey b a := Eq.symm h

theorem SameKey.trans {a b c : Scalar} (h : SameKey a b) (h' : SameKey b c) : SameKey a c :=
  Eq.trans h h'

/-- A text names the same entry as another text only if the two are equal. -/
@[simp] theorem sameKey_text_iff {s t : Text} : SameKey (.text s) (.text t) ↔ s = t := by
  simp [SameKey, keyForm]

/-- Everything but nothing, falsehood, zero and the empty texts counts as set. -/
def isTruthy : Scalar → Bool
  | null => false
  | bool b => b
  | int n => n != 0
  | float x => !x.isZero
  | text t => !t.isEmpty
  | moment _ => true
  | bytes data => !data.isEmpty

/-- The kind of a scalar. -/
def kind : Scalar → Value.Kind
  | null => .null
  | bool _ => .bool
  | int _ => .int
  | float _ => .float
  | text _ => .text
  | moment m => if m.time.isSome then .time else .date
  | bytes _ => .bytes

end Scalar

namespace Mapping

/-- The value under a key. -/
def find? (m : Mapping) (key : Scalar) : Option Value :=
  match m with
  | [] => none
  | (k, v) :: m => if Scalar.SameKey k key then some v else find? m key

/-- The mapping with the value under a key set: in place when the key is there, else at the end.
An old key keeps its own spelling. -/
def insert (m : Mapping) (key : Scalar) (value : Value) : Mapping :=
  match m with
  | [] => [(key, value)]
  | (k, v) :: m =>
    if Scalar.SameKey k key then (k, value) :: m else (k, v) :: insert m key value

/-- The value under a key that is a text. -/
def get? (m : Mapping) (key : Text) : Option Value := find? m (.text key)

/-- The mapping with the value under a text key set. -/
def set (m : Mapping) (key : Text) (value : Value) : Mapping := insert m (.text key) value

/-- A mapping built entry by entry; of a repeated key the first place and the last value stay. -/
def ofEntries (entries : List (Scalar × Value)) : Mapping :=
  entries.foldl (fun m e => insert m e.1 e.2) []

/-- The keys in order. -/
def keys (m : Mapping) : List Scalar := m.map Prod.fst

@[simp] theorem find?_nil (key : Scalar) : find? [] key = none := rfl

theorem find?_cons (k : Scalar) (v : Value) (m : Mapping) (key : Scalar) :
    find? ((k, v) :: m) key = if Scalar.SameKey k key then some v else find? m key := rfl

/-- Setting an entry changes the value under its key and nothing else. -/
theorem find?_insert (m : Mapping) (key key' : Scalar) (value : Value) :
    find? (insert m key value) key' =
      if Scalar.SameKey key key' then some value else find? m key' := by
  induction m with
  | nil => rfl
  | cons e m ih =>
    obtain ⟨k, v⟩ := e
    unfold insert
    split
    · next h =>
      rw [find?_cons, find?_cons]
      by_cases h' : Scalar.SameKey key key'
      · simp [h', h.trans h']
      · have : ¬ Scalar.SameKey k key' := fun h'' => h' (h.symm.trans h'')
        simp [h', this]
    · next h =>
      rw [find?_cons, find?_cons, ih]
      by_cases h' : Scalar.SameKey key key'
      · have : ¬ Scalar.SameKey k key' := fun h'' => h (h''.trans h'.symm)
        simp [h', this]
      · simp [h']

end Mapping

namespace Value

/-- A text. -/
@[match_pattern] abbrev text (t : Text) : Value := .scalar (.text t)

/-- The absence of a value. -/
@[match_pattern] abbrev null : Value := .scalar .null

/-- A truth value. -/
@[match_pattern] abbrev bool (b : Bool) : Value := .scalar (.bool b)

/-- A whole number. -/
@[match_pattern] abbrev int (n : Int) : Value := .scalar (.int n)

instance : Inhabited Value := ⟨null⟩

/-- An optional text, absent as the null value. -/
def ofText? : Option Text → Value
  | none => null
  | some t => text t

/-- A list of texts. -/
def ofTexts (ts : List Text) : Value := .list (ts.map text)

/-! ### Knots -/

mutual

/-- The value with another one in the place of a name. -/
def replace (name : Nat) (whole : Value) : Value → Value
  | .scalar s => .scalar s
  | .list items => .list (replaceItems name whole items)
  | .pair first second => .pair (replace name whole first) (replace name whole second)
  | .set items => .set items
  | .map entries => .map (replaceEntries name whole entries)
  | .knot inner body => .knot inner (if inner = name then body else replace name whole body)
  | .again other kind => if other = name then whole else .again other kind

/-- The items with another value in the place of a name. -/
def replaceItems (name : Nat) (whole : Value) : List Value → List Value
  | [] => []
  | v :: vs => replace name whole v :: replaceItems name whole vs

/-- The entries with another value in the place of a name. -/
def replaceEntries (name : Nat) (whole : Value) : List (Scalar × Value) → List (Scalar × Value)
  | [] => []
  | (k, v) :: es => (k, replace name whole v) :: replaceEntries name whole es

end

/-- A value that is no knot: of a knot the collection that it ties, in which the knot itself stands
wherever the collection comes back. -/
def expose : Value → Value
  | .knot name body => replace name (.knot name body) body
  | v => v

/-- The entries of a mapping. -/
def entries? (v : Value) : Option Mapping :=
  match v.expose with
  | .map entries => some entries
  | _ => none

@[simp] theorem entries?_map (m : Mapping) : (Value.map m).entries? = some m := rfl

/-! ### Truth and kind -/

/-- The values that count as set: everything but null, false, zero and what is empty. A collection
that is part of itself is not empty. -/
def isTruthy : Value → Bool
  | .scalar s => s.isTruthy
  | .list items => !items.isEmpty
  | .set items => !items.isEmpty
  | .map entries => !entries.isEmpty
  | .pair .. | .knot .. | .again .. => true

/-- The kind of a value. -/
def kind : Value → Kind
  | .scalar s => s.kind
  | .list _ => .list
  | .pair .. => .pair
  | .set _ => .set
  | .map _ => .map
  | .knot _ body => body.kind
  | .again _ kind => kind

end Value

end DocLineage
