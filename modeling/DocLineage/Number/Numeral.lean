import DocLineage.Number.Binary64

/-!
# Decimal numerals

## Main definitions

* `isDigit`, `digitsValue` — decimal digits and the value of a run of them
* `Numeral` — the parts of a numeral with a point and an exponent
* `Numeral.ofChars?` — the parts of a run of characters
* `Numeral.toBinary64` — the nearest floating-point number
-/

namespace DocLineage

/-- ASCII digits. -/
def isDigit (c : Char) : Bool := '0' ≤ c && c ≤ '9'

/-- The value of a run of decimal digits. -/
def digitsValue (cs : List Char) : Nat :=
  cs.foldl (fun n c => n * 10 + (c.toNat - '0'.toNat)) 0

/-- A sign that may be missing: whether it is a minus, and what follows it. -/
def splitSign : List Char → Bool × List Char
  | '-' :: cs => (true, cs)
  | '+' :: cs => (false, cs)
  | cs => (false, cs)

/-- The parts of a number: sign, digits before the point, digits after it, and exponent. -/
structure Numeral where
  negative : Bool
  whole : List Char
  fraction : Option (List Char)
  exponent : Option Int
deriving Repr

namespace Numeral

/-- Reads an exponent with its letter. At least one digit is needed. -/
def exponent? : List Char → Option Int
  | [] => none
  | e :: cs =>
    let (negative, digits) := splitSign cs
    if (e == 'e' || e == 'E') && !digits.isEmpty && digits.all isDigit then
      let n : Int := digitsValue digits
      some (if negative then -n else n)
    else none

/-- The parts of a whole run of characters. There has to be a digit on one side of the point. -/
def ofChars? (cs : List Char) : Option Numeral :=
  let (negative, cs) := splitSign cs
  let whole := cs.takeWhile isDigit
  let (fraction, rest) := match cs.dropWhile isDigit with
    | '.' :: ds => (some (ds.takeWhile isDigit), ds.dropWhile isDigit)
    | ds => (none, ds)
  if whole.isEmpty && (fraction.getD []).isEmpty then none
  else if rest.isEmpty then some ⟨negative, whole, fraction, none⟩
  else (exponent? rest).map fun e => ⟨negative, whole, fraction, some e⟩

/-- The floating-point number nearest to the numeral. -/
def toBinary64 (n : Numeral) : Binary64 :=
  let fraction := n.fraction.getD []
  let magnitude := Binary64.ofDecimal (digitsValue (n.whole ++ fraction))
    (n.exponent.getD 0 - fraction.length)
  if n.negative then magnitude.neg else magnitude

end Numeral

end DocLineage
