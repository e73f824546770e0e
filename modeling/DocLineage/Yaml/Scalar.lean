import DocLineage.Fault
import DocLineage.Text.Base64
import DocLineage.Text.Blank
import DocLineage.Text.Digit
import DocLineage.Text.Lower
import DocLineage.Yaml.NodeType

/-!
# Reading YAML scalars

A scalar is read as the type that its node has. Numbers may hold low lines anywhere and the digits
of any script, and parts after colons count in base sixty.

## Main definitions

* `Yaml.plainDigits` — a text with its digits and blanks as ASCII characters
* `Yaml.readInt`, `Yaml.readFloat`, `Yaml.readBool`, `Yaml.readMoment` — the text of one type read
* `Yaml.readScalar` — the text of any type read
-/

namespace DocLineage.Yaml

/-- The blanks that may stand around a number. -/
def isNumberBlank (c : Char) : Bool := (0x09 ≤ c.toNat && c.toNat ≤ 0x0D) || c == ' '

/-- A text without the blanks at its ends. -/
def trim (cs : List Char) : List Char :=
  ((cs.dropWhile isNumberBlank).reverse.dropWhile isNumberBlank).reverse

/-- A text without its low lines. -/
def withoutMarks (t : Text) : Text := t.filter (· != .char '_')

/-- The ASCII character that a symbol stands for in a number: a digit of any script is that digit,
and a blank is the plain one. -/
def plainChar? : Symbol → Option Char
  | .half _ => none
  | .char c =>
    if c.toNat < 0x7F then some c
    else if Text.isBlankChar c then some ' '
    else (Text.digitValue? c).map Nat.digitChar

/-- The ASCII characters of a text up to the first symbol that stands for none, which is replaced by
a question mark. -/
def replaceDigits : Text → List Char
  | [] => []
  | s :: t =>
    match plainChar? s with
    | some c => c :: replaceDigits t
    | none => ['?']

/-- A text with its digits and blanks as ASCII characters. -/
def plainDigits (t : Text) : List Char :=
  match t.toChars? with
  | some cs => if cs.all fun c => c.toNat < 0x80 then cs else replaceDigits t
  | none => replaceDigits t

/-- A sign that may be missing: whether it is a minus, and what follows it. -/
def splitSignText : Text → Bool × Text
  | .char '-' :: t => (true, t)
  | .char '+' :: t => (false, t)
  | t => (false, t)

/-! ### Integers -/

/-- The letter that announces a base after a zero. -/
def baseLetter? : Nat → Option Char
  | 2 => some 'b'
  | 8 => some 'o'
  | 16 => some 'x'
  | _ => none

/-- A run of digits without the announcement of the base, if that is there. -/
def withoutBase (base : Nat) : List Char → List Char
  | '0' :: c :: ds => if (baseLetter? base).any fun l => c == l || c == l.toUpper then ds
      else '0' :: c :: ds
  | ds => ds

/-- The value of a run of digits in a base of at most sixteen. -/
def digitsIn? (base : Nat) : List Char → Option Nat
  | [] => none
  | ds => ds.foldl (fun n d => do
      let v ← Text.hexValue? d
      if v < base then return (← n) * base + v else none) (some 0)

/-- The integer that a text stands for in a base, with blanks around it and a sign. The number of
decimal digits is limited, even if they are followed by something else. -/
def intIn (base : Nat) (t : Text) : Except Fault Int :=
  let (negative, ds) := splitSign (trim (plainDigits t))
  let count := (ds.takeWhile isDigit).length
  if base == 10 && maxIntegerDigits < count then .error (.oversizedInteger count)
  else
    match digitsIn? base (withoutBase base ds) with
    | none => .error (.unreadable (.int base) t)
    | some n => .ok (if negative then -(n : Int) else n)

/-- The parts of a text between colons. -/
def sixtieths (t : Text) : List Text := Text.split (.char ':') t

/-- The integer that a text stands for. -/
def readInt (t : Text) : Except Fault Int := do
  if (withoutMarks t).isEmpty then throw .emptyNumber
  let (negative, t) := splitSignText (withoutMarks t)
  let n ← match t with
    | [] => throw .emptyNumber
    | [.char '0'] => pure 0
    | .char '0' :: .char 'b' :: ds => intIn 2 ds
    | .char '0' :: .char 'x' :: ds => intIn 16 ds
    | .char '0' :: _ => intIn 8 t
    | _ =>
      if t.contains (.char ':') then
        (← (sixtieths t).mapM (intIn 10)).foldl (fun n part => n * 60 + part) 0 |> pure
      else intIn 10 t
  return if negative then -n else n

/-! ### Floating-point numbers -/

/-- The sum of two numbers. -/
def plus (x y : Binary64) : Binary64 :=
  ⟨(Float.ofBits x.bits + Float.ofBits y.bits).toBits⟩

/-- The product of two numbers. -/
def times (x y : Binary64) : Binary64 :=
  ⟨(Float.ofBits x.bits * Float.ofBits y.bits).toBits⟩

/-- The number that a numeral or a name stands for, with blanks around it and a sign. -/
def decimal (t : Text) : Except Fault Binary64 :=
  let trimmed := trim (plainDigits t)
  let (negative, name) := splitSign trimmed
  let signed (x : Binary64) := if negative then x.neg else x
  match Numeral.ofChars? trimmed with
  | some n => .ok n.toBinary64
  | none =>
    if ["inf", "infinity"].contains (String.ofList name) then .ok (signed .infinity)
    else if String.ofList name == "nan" then .ok .nan
    else .error (.unreadable .float t)

/-- The most parts in base sixty, from the left of which the weight is too great for a
floating-point number. -/
def maxSixtieths : Nat := 174

/-- The sum of parts in base sixty, the last one first. -/
def sumSixtieths : (parts : List Binary64) → (unit : Nat) → (sum : Binary64) → Binary64
  | [], _, sum => sum
  | part :: parts, unit, sum =>
    sumSixtieths parts (unit * 60) (plus sum (times part (Binary64.ofRatio unit 1)))

/-- The number that parts in base sixty stand for. -/
def ofSixtieths (parts : List Binary64) : Except Fault Binary64 :=
  if maxSixtieths < parts.length then .error .oversizedWeight
  else .ok (sumSixtieths parts.reverse 1 ⟨0⟩)

/-- The text of a floating-point number in lower case and without low lines, and its sign. -/
def unsignedFloat (t : Text) : Bool × Text := splitSignText (Text.lower (withoutMarks t))

/-- The text is the name of the value that is no number, as the language spells it. -/
def isNanName (t : Text) : Bool := (unsignedFloat t).2 == ".nan"

/-- The floating-point number that a text stands for. -/
def readFloat (t : Text) : Except Fault Binary64 := do
  if (withoutMarks t).isEmpty then throw .emptyNumber
  let (negative, unsigned) := unsignedFloat t
  let x ←
    if unsigned == ".inf" then pure .infinity
    else if isNanName t then pure .nan
    else if unsigned.contains (.char ':') then do
      ofSixtieths (← (sixtieths unsigned).mapM decimal)
    else decimal unsigned
  return if negative && x.form != .nan then x.neg else x

/-! ### Truth values and moments -/

/-- The truth value that a text stands for. -/
def readBool (t : Text) : Except Fault Bool :=
  let lowered := Text.lower t
  if (["yes", "true", "on"] : List Text).contains lowered then .ok true
  else if (["no", "false", "off"] : List Text).contains lowered then .ok false
  else .error (.unreadable .bool lowered)

/-- A fraction of a second in millionths, further digits cut off. -/
def microseconds (fraction : List Char) : Nat :=
  let digits := fraction.take 6
  digitsValue digits * Nat.pow 10 (6 - digits.length)

/-- The distance in minutes that an offset stands for. -/
def OffsetText.toMinutes (o : OffsetText) : Int :=
  let minutes : Int := (o.hours * 60 + o.minutes : Nat)
  if o.negative then -minutes else minutes

/-- The time of day that a text stands for. -/
def TimeText.toTime (t : TimeText) : TimeOfDay where
  hour := t.hour
  minute := t.minute
  second := t.second
  microsecond := microseconds t.fraction
  offset := t.offset.map OffsetText.toMinutes

/-- The date or time that a text stands for. A line feed at its end does not count. -/
def readMoment (t : Text) : Except Fault Moment :=
  match (withoutLineFeed t).toChars?.bind MomentText.ofChars? with
  | none => .error (.unreadable .moment t)
  | some m =>
    let moment : Moment :=
      { year := m.year, month := m.month, day := m.day, time := m.time.map TimeText.toTime }
    match moment.defect? with
    | some defect => .error (.impossibleMoment defect)
    | none => .ok moment

/-! ### Any type -/

/-- The scalar that a text stands for in a type. The types of collections have no scalars, and the
two special keys and unknown types have no values. -/
def readScalar (type : NodeType) (t : Text) : Except Fault Scalar :=
  match type with
  | .null => .ok .null
  | .bool => (readBool t).map .bool
  | .int => (readInt t).map .int
  | .float => (readFloat t).map .float
  | .text => .ok (.text t)
  | .moment => (readMoment t).map .moment
  | .bytes =>
    match t.toChars?.bind Text.ofBase64? with
    | some data => .ok (.bytes data)
    | none => .error .malformedYaml
  | .list | .map | .set | .orderedMap | .pairs | .merge | .default | .unknown =>
    .error .malformedYaml

end DocLineage.Yaml
