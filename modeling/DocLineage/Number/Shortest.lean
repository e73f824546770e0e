import DocLineage.Number.Binary64

/-!
# The shortest decimal text of a floating-point number

A number is written with the fewest decimal digits that read back as the same number; of two such
texts the nearer one is taken, and of two equally near ones the even one. The digits are found by
exact arithmetic on the interval of reals that round to the number.

## Main definitions

* `Binary64.Decimal` — digits and the power of ten of the first digit
* `Binary64.shortest` — the shortest decimal that reads back
* `Binary64.Style` — where positional digits end and how the special values are spelled
* `Binary64.toText` — the text of a number in a style
-/

namespace DocLineage.Binary64

/-- A positive decimal `d.ddd * 10 ^ exponent` by its digits, the first of which is not zero. -/
structure Decimal where
  digits : List Char
  exponent : Int
deriving DecidableEq, Repr

/-- The reals that round to a number: multiples `low` to `high` of `unitNum / unitDen`, with the
number itself at `middle`. The ends belong to the interval when `closed` holds. -/
structure Interval where
  low : Nat
  middle : Nat
  high : Nat
  unitNum : Nat
  unitDen : Nat
  closed : Bool
deriving Repr

/-- The interval of `mantissa * 2 ^ exponent`. The lower half is half as wide at a power of two
that is not the least normal number. -/
def interval (mantissa : Nat) (exponent : Int) : Interval where
  low :=
    if mantissa == Nat.pow 2 52 && -1074 < exponent then 4 * mantissa - 1 else 4 * mantissa - 2
  middle := 4 * mantissa
  high := 4 * mantissa + 2
  unitNum := Nat.pow 2 (exponent - 2).toNat
  unitDen := Nat.pow 2 (2 - exponent).toNat
  closed := mantissa % 2 == 0

namespace Interval

/-- The real `count * 10 ^ power` lies in the interval. -/
def contains (i : Interval) (count : Nat) (power : Int) : Bool :=
  let here := count * Nat.pow 10 power.toNat * i.unitDen
  let scale := i.unitNum * Nat.pow 10 (-power).toNat
  if i.closed then i.low * scale ≤ here && here ≤ i.high * scale
  else i.low * scale < here && here < i.high * scale

/-- The power of ten of the first digit of the middle. -/
def leadingPower (i : Interval) : Int :=
  let num := i.middle * i.unitNum
  let p : Int := (decimalLength num : Int) - decimalLength i.unitDen
  if i.unitDen * Nat.pow 10 p.toNat ≤ num * Nat.pow 10 (-p).toNat then p else p - 1

/-- The count of steps `10 ^ power` nearest to the middle among the two neighbours of the middle
that lie in the interval. -/
def nearest? (i : Interval) (power : Int) : Option Nat :=
  let num := i.middle * i.unitNum * Nat.pow 10 (-power).toNat
  let den := i.unitDen * Nat.pow 10 power.toNat
  let below := num / den
  match i.contains below power, i.contains (below + 1) power with
  | true, true => some (roundDiv num den)
  | true, false => some below
  | false, true => some (below + 1)
  | false, false => none

/-- Searches the grids of `digits`, `digits + 1`, ... digits for a point of the interval. -/
def search (i : Interval) (leading : Int) : (tries digits : Nat) → Nat × Int
  | 0, digits =>
    let power := leading - digits + 1
    (i.middle * i.unitNum * Nat.pow 10 (-power).toNat / (i.unitDen * Nat.pow 10 power.toNat),
      power)
  | tries + 1, digits =>
    let power := leading - digits + 1
    match i.nearest? power with
    | some count => (count, power)
    | none => i.search leading tries (digits + 1)

end Interval

/-- The shortest decimal that reads back as `mantissa * 2 ^ exponent`, for a positive mantissa.
Seventeen digits always suffice. -/
def shortest (mantissa : Nat) (exponent : Int) : Decimal :=
  let i := interval mantissa exponent
  let (count, power) := i.search i.leadingPower 17 1
  let digits := Nat.toDigits 10 count
  let kept := (digits.reverse.dropWhile (· == '0')).reverse
  ⟨kept, power + digits.length - 1⟩

/-- The choices of a number format that are not forced by the value. -/
structure Style where
  /-- Decimals with a first digit at this power of ten or above are positional. -/
  leastPositional : Int
  /-- Decimals with a first digit at this power of ten or above have an exponent. -/
  firstExponential : Int
  nanText : String
  infinityText : String

/-- Digits on both sides of a point, with a zero where a side would be empty. -/
def positional (d : Decimal) : List Char :=
  if d.exponent < 0 then
    '0' :: '.' :: List.replicate (-d.exponent - 1).toNat '0' ++ d.digits
  else
    let whole := d.exponent.toNat + 1
    let padded := d.digits ++ List.replicate (whole - d.digits.length) '0'
    let rest := padded.drop whole
    padded.take whole ++ '.' :: (if rest.isEmpty then ['0'] else rest)

/-- The first digit, a point before further digits, and an exponent of at least two digits. -/
def exponential (d : Decimal) : List Char :=
  let tail := d.digits.drop 1
  let power := Nat.toDigits 10 d.exponent.natAbs
  d.digits.take 1 ++ (if tail.isEmpty then [] else '.' :: tail) ++
    'e' :: (if d.exponent < 0 then '-' else '+') :: List.replicate (2 - power.length) '0' ++ power

/-- The text of a number: shortest digits, laid out as the style says. -/
def toText (n : Style) (x : Binary64) : String :=
  match x.form with
  | .nan => n.nanText
  | .infinite negative => (if negative then "-" else "") ++ n.infinityText
  | .finite negative mantissa exponent =>
    let sign := if negative then ['-'] else []
    if mantissa == 0 then String.ofList (sign ++ ['0', '.', '0'])
    else
      let d := shortest mantissa exponent
      let body :=
        if n.leastPositional ≤ d.exponent && d.exponent < n.firstExponential then positional d
        else exponential d
      String.ofList (sign ++ body)

end DocLineage.Binary64
