/-!
# Binary floating-point numbers

The numbers with a fraction that dumps and configurations may hold, kept as the sixty-four bits of
their interchange format. Decoding and the reading of a decimal numeral are exact integer
arithmetic.

## Main definitions

* `Binary64` — a number by its bits
* `Binary64.Form`, `Binary64.form` — not a number, infinite, or `± mantissa * 2 ^ exponent`
* `Binary64.ofRatio` — the number nearest to a fraction, a tie going to the even mantissa
* `Binary64.ofDecimal` — the number nearest to a decimal numeral
* `Binary64.toInt?` — the integer that the number equals, if any
-/

namespace DocLineage

/-- A floating-point number in the binary interchange format of sixty-four bits. -/
structure Binary64 where
  bits : UInt64
deriving DecidableEq, Repr, Inhabited

namespace Binary64

/-- What a bit pattern stands for. -/
inductive Form where
  | nan
  | infinite (negative : Bool)
  /-- The number `± mantissa * 2 ^ exponent`. -/
  | finite (negative : Bool) (mantissa : Nat) (exponent : Int)
deriving DecidableEq, Repr

/-- The sign bit. -/
def isNegative (x : Binary64) : Bool := x.bits >>> 63 == 1

/-- The biased exponent. -/
def exponentField (x : Binary64) : Nat := ((x.bits >>> 52) &&& 0x7FF).toNat

/-- The stored part of the mantissa. -/
def fractionField (x : Binary64) : Nat := (x.bits &&& 0xFFFFFFFFFFFFF).toNat

/-- Decodes the bits: the leading bit of a mantissa is implicit unless the exponent is least. -/
def form (x : Binary64) : Form :=
  if x.exponentField == 0x7FF then
    if x.fractionField == 0 then .infinite x.isNegative else .nan
  else if x.exponentField == 0 then .finite x.isNegative x.fractionField (-1074)
  else .finite x.isNegative (x.fractionField + Nat.pow 2 52) ((x.exponentField : Int) - 1075)

/-- Positive infinity. -/
def infinity : Binary64 := ⟨0x7FF0000000000000⟩

/-- The number that is not a number. -/
def nan : Binary64 := ⟨0x7FF8000000000000⟩

/-- One of the many patterns that are not a number, all of which differ from `nan`. -/
def nanOf (payload : Nat) : Binary64 := ⟨nan.bits + UInt64.ofNat (payload % Nat.pow 2 50 + 1)⟩

/-- The same number with the opposite sign. -/
def neg (x : Binary64) : Binary64 := ⟨x.bits ^^^ 0x8000000000000000⟩

/-- Both zeros are zero. -/
def isZero (x : Binary64) : Bool := x.exponentField == 0 && x.fractionField == 0

/-- `num / den` rounded to the nearest integer, a tie going to the even one. -/
def roundDiv (num den : Nat) : Nat :=
  let floor := num / den
  let rest := num % den
  if 2 * rest < den then floor
  else if den < 2 * rest then floor + 1
  else floor + floor % 2

/-- The exponent of the greatest power of two that is at most `num / den`, for positive terms. -/
def floorLog2 (num den : Nat) : Int :=
  let t : Int := (num.log2 : Int) - den.log2
  let reaches :=
    if 0 ≤ t then den * Nat.pow 2 t.toNat ≤ num else den ≤ num * Nat.pow 2 (-t).toNat
  if reaches then t else t - 1

/-- The positive number nearest to `num / den`, a tie going to the even mantissa; infinite when
the fraction is too large. -/
def ofRatio (num den : Nat) : Binary64 :=
  if num == 0 then ⟨0⟩
  else
    let q := max (-1074) (floorLog2 num den - 52)
    let mantissa :=
      if 0 ≤ q then roundDiv num (den * Nat.pow 2 q.toNat)
      else roundDiv (num * Nat.pow 2 (-q).toNat) den
    let pattern := (q + 1074).toNat * Nat.pow 2 52 + mantissa
    if pattern < 0x7FF0000000000000 then ⟨UInt64.ofNat pattern⟩ else infinity

/-- Decimal digits of a number that is not zero. -/
def decimalLength (n : Nat) : Nat := (Nat.toDigits 10 n).length

/-- The number nearest to `digits * 10 ^ exponent`. Exponents far outside the range of the format
are settled without the power. -/
def ofDecimal (digits : Nat) (exponent : Int) : Binary64 :=
  let top := exponent + decimalLength digits
  if digits == 0 || top < -400 then ⟨0⟩
  else if 400 < top then infinity
  else if 0 ≤ exponent then ofRatio (digits * Nat.pow 10 exponent.toNat) 1
  else ofRatio digits (Nat.pow 10 (-exponent).toNat)

/-- The number as a fraction with a positive denominator, when it is finite. -/
def toRatio? (x : Binary64) : Option (Int × Nat) :=
  match x.form with
  | .finite negative mantissa exponent =>
    let sign : Int := if negative then -1 else 1
    if 0 ≤ exponent then some (sign * (mantissa * Nat.pow 2 exponent.toNat : Nat), 1)
    else some (sign * mantissa, Nat.pow 2 (-exponent).toNat)
  | _ => none

/-- The integer that the number equals, if there is one. -/
def toInt? (x : Binary64) : Option Int :=
  match x.toRatio? with
  | some (num, den) => if num % den == 0 then some (num / den) else none
  | none => none

end Binary64

end DocLineage
