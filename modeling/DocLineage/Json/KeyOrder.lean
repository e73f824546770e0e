import DocLineage.Fault

/-!
# The order of keys

In the canonical layout the entries of a mapping stand in the order of their keys: texts by code
points, numbers by value, moments by the calendar or by the instant they stand for. Not all keys can
be compared, and a number that is none precedes nothing and follows nothing; which comparisons are
made, and in which order, therefore shows. Entries that already descend are reversed; the others are
inserted one by one into those before them, each at a place that is found by halving.

## Main definitions

* `Json.precedes` — one key comes before another one
* `Json.startingRun` — how far a list ascends or descends
* `Json.sortEntries` — entries in the order of their keys

## Main results

* `Json.perm_insertAt` — inserting an entry loses none
-/

namespace DocLineage.Json

/-- A number as it is compared: first by its rank, which is zero unless it is infinite, and then by
a fraction. -/
structure Magnitude where
  rank : Int
  num : Int
  den : Nat

/-- One magnitude is less than another one. -/
def Magnitude.less (a b : Magnitude) : Bool :=
  a.rank < b.rank || (a.rank == b.rank && a.num * b.den < b.num * a.den)

/-- How a floating-point number is compared; one that is no number is not. -/
def floatMagnitude? (x : Binary64) : Option Magnitude :=
  match x.form with
  | .finite .. => x.toRatio?.map fun r => ⟨0, r.1, r.2⟩
  | .infinite negative => some ⟨if negative then -1 else 1, 0, 1⟩
  | .nan => none

/-- How a number is compared. -/
def magnitude? : Scalar → Option Magnitude
  | .bool b => some ⟨0, if b then 1 else 0, 1⟩
  | .int n => some ⟨0, n, 1⟩
  | .float x => floatMagnitude? x
  | _ => none

/-- One number is less than another one. -/
def numberPrecedes (a b : Scalar) : Bool :=
  match magnitude? a, magnitude? b with
  | some a, some b => a.less b
  | _, _ => false

/-- The numbers of a moment, from the coarsest to the finest. -/
def calendarNumbers (m : Moment) : List Nat :=
  m.year :: m.month :: m.day ::
    match m.time with
    | none => []
    | some t => [t.hour, t.minute, t.second, t.microsecond]

/-- One moment comes before another one. Dates and times cannot be compared, and neither can times
of which only one has an offset. -/
def momentPrecedes (a b : Moment) : Except Fault Bool :=
  if a.time.isSome != b.time.isSome then .error (.unorderedMoments .dateAndTime)
  else
    match a.instant?, b.instant? with
    | some a, some b => .ok (a < b)
    | none, none => .ok (decide (calendarNumbers a < calendarNumbers b))
    | _, _ => .error (.unorderedMoments .offsets)

/-- A scalar is a number. -/
def isNumber : Scalar → Bool
  | .bool _ | .int _ | .float _ => true
  | _ => false

/-- One key comes before another one, as far as they can be compared. -/
def precedes (a b : Scalar) : Except Fault Bool :=
  match a, b with
  | .text s, .text t => .ok (decide (s < t))
  | .bytes s, .bytes t => .ok (decide (s < t))
  | .moment a, .moment b => momentPrecedes a b
  | a, b =>
    if isNumber a && isNumber b then .ok (numberPrecedes a b)
    else .error (.unordered a.kind b.kind)

variable {α : Type}

/-- How many entries after a first one go on in its direction: downwards if each precedes the one
before it, upwards if none does. -/
def runLength (down : Bool) (last : Scalar) : List (Scalar × α) → Except Fault Nat
  | [] => .ok 0
  | e :: es => do
    if (← precedes e.1 last) == down then return (← runLength down e.1 es) + 1 else return 0

/-- How far a list ascends or descends from its start, and whether it descends. -/
def startingRun : List (Scalar × α) → Except Fault (Nat × Bool)
  | [] => .ok (0, false)
  | [_] => .ok (1, false)
  | a :: b :: es => do
    let down ← precedes b.1 a.1
    return ((← runLength down b.1 es) + 2, down)

/-- The place of a key among entries in order, between two bounds: after all that it does not
precede. -/
def placeOf (key : Scalar) (es : Array (Scalar × α)) (low high : Nat) : Except Fault Nat :=
  if low < high then do
    let middle := (low + high) / 2
    match es[middle]? with
    | none => return low
    | some e =>
      if ← precedes key e.1 then placeOf key es low middle else placeOf key es (middle + 1) high
  else .ok low
termination_by high - low
decreasing_by all_goals omega

/-- Entries with one more at a place. -/
def insertAt (es : List (Scalar × α)) (place : Nat) (e : Scalar × α) : List (Scalar × α) :=
  es.take place ++ e :: es.drop place

/-- Inserting an entry loses none. -/
theorem perm_insertAt (es : List (Scalar × α)) (place : Nat) (e : Scalar × α) :
    (insertAt es place e).Perm (e :: es) := by
  have h : (insertAt es place e).Perm (e :: (es.take place ++ es.drop place)) := List.perm_middle
  rwa [List.take_append_drop] at h

/-- Entries in order with one more at the place of its key. -/
def insertEntry (es : List (Scalar × α)) (e : Scalar × α) : Except Fault (List (Scalar × α)) := do
  return insertAt es (← placeOf e.1 es.toArray 0 es.length) e

/-- Entries in the order of their keys. -/
def sortEntries (es : List (Scalar × α)) : Except Fault (List (Scalar × α)) := do
  let (count, down) ← startingRun es
  let run := es.take count
  (es.drop count).foldlM insertEntry (if down then run.reverse else run)

end DocLineage.Json
