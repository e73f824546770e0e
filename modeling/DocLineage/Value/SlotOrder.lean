import DocLineage.Value.Basic

/-!
# The order of numbers in a set

A set has no order of its own. A set of numbers is gone through in the order of the slots of a table
in which every number has a place that follows from its residue, or a free one near it. Other sets
are gone through in the order in which their items were written.

## Main definitions

* `Slots.residue?` — the residue of a number
* `Slots.place` — the free slot that a residue leads to
* `Slots.arrange` — the items of a set in the order in which it is gone through
-/

namespace DocLineage.Slots

/-- The prime by which residues are taken. -/
def modulus : Nat := Nat.pow 2 61 - 1

/-- A residue with the sign of its number; minus one is taken for minus two. -/
def signed (negative : Bool) (residue : Nat) : Int :=
  if !negative then residue else if residue == 1 then -2 else -(residue : Int)

/-- The residue of a fraction whose denominator is a power of two. -/
def ratioResidue (num : Int) (den : Nat) : Int :=
  let shift := (61 - den.log2 % 61) % 61
  signed (num < 0) (num.natAbs * Nat.pow 2 shift % modulus)

/-- The residue of a floating-point number. -/
def floatResidue? (x : Binary64) : Option Int :=
  match x.form with
  | .finite .. => x.toRatio?.map fun r => ratioResidue r.1 r.2
  | .infinite negative => some (if negative then -314159 else 314159)
  | .nan => none

/-- The residue of a number. -/
def residue? : Scalar → Option Int
  | .bool b => some (if b then 1 else 0)
  | .int n => some (ratioResidue n 1)
  | .float x => floatResidue? x
  | _ => none

/-- How many slots behind the first one are tried before a place farther away. -/
def nearSlots : Nat := 9

/-- The first free slot of some that follow each other. -/
def freeNear? {α : Type} (table : Array (Option α)) (start : Nat) : (count : Nat) → Option Nat
  | 0 => none
  | count + 1 =>
    if (table.getD start none).isNone then some start else freeNear? table (start + 1) count

/-- The free slot that is found from a start, with what is left of a residue to scatter the further
places. -/
def place {α : Type} (table : Array (Option α)) (start scatter : Nat) : (tries : Nat) → Nat
  | 0 => start
  | tries + 1 =>
    let count := if start + nearSlots < table.size then nearSlots + 1 else 1
    match freeNear? table start count with
    | some slot => slot
    | none =>
      let scatter := scatter / 32
      place table ((start * 5 + 1 + scatter) % table.size) scatter tries

/-- The table with an item under its residue. -/
def enter (table : Array (Option Scalar)) (e : Scalar × Int) : Array (Option Scalar) :=
  let residue := (e.2 % Nat.pow 2 64).toNat
  table.setIfInBounds (place table (residue % table.size) residue (table.size + 16)) (some e.1)

/-- The number of slots for a number of items: a power of two of which at least half stay free. -/
def tableSize (count : Nat) : Nat := if count < 5 then 8 else Nat.pow 2 ((2 * count).log2 + 1)

/-- The items of a set in the order in which it is gone through. -/
def arrange (items : List Scalar) : List Scalar :=
  match items.mapM fun s => (residue? s).map fun r => (s, r) with
  | none => items
  | some entries =>
    let table := Array.replicate (tableSize items.length) none
    (entries.foldl enter table).toList.filterMap id

end DocLineage.Slots
