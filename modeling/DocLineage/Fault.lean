import DocLineage.Text.Quoted
import DocLineage.Value.Basic

/-!
# Faults

The reasons for which reading, resolving and writing stop. A fault records its cause; the wording
is in one place.

## Main definitions

* `Facility` — what is asked of a value
* `FileFault` — what a file operation met instead of what it needed
* `Fault` — every cause of failure
* `Fault.message?` — the wording of a cause; the three malformed-input causes have none
-/

namespace DocLineage

/-- The name of a kind of value in a message. -/
def Value.Kind.label : Value.Kind → String
  | .null => "NoneType"
  | .bool => "bool"
  | .int => "int"
  | .float => "float"
  | .text => "str"
  | .date => "datetime.date"
  | .time => "datetime.datetime"
  | .bytes => "bytes"
  | .list => "list"
  | .pair => "tuple"
  | .set => "set"
  | .map => "dict"

/-- The name of a kind without the library that it belongs to. -/
def Value.Kind.shortLabel : Value.Kind → String
  | .date => "date"
  | .time => "datetime"
  | k => k.label

/-- What was asked of a value that does not offer it. -/
inductive Facility where
  /-- Looking up an entry of a mapping. -/
  | lookup
  /-- Listing the entries of a mapping. -/
  | entries
  /-- Lower-casing a text. -/
  | lowering
  /-- Finding or creating a child entry of a mapping. -/
  | child
  /-- Naming the directory that a path lies in. -/
  | parent
deriving DecidableEq, Repr

/-- The name of a facility in a message. -/
def Facility.label : Facility → String
  | .lookup => "get"
  | .entries => "items"
  | .lowering => "lower"
  | .child => "setdefault"
  | .parent => "parent"

/-- What a file operation met instead of what it needed. -/
inductive FileFault where
  | missing
  | isDirectory
  | notDirectory
  | taken
  | nameTooLong
deriving DecidableEq, Repr

/-- The number and the wording of a file fault. -/
def FileFault.label : FileFault → String
  | .missing => "[Errno 2] No such file or directory"
  | .isDirectory => "[Errno 21] Is a directory"
  | .notDirectory => "[Errno 20] Not a directory"
  | .taken => "[Errno 17] File exists"
  | .nameTooLong => "[Errno 36] File name too long"

/-- A type that a scalar was explicitly declared to have. -/
inductive DeclaredType where
  | int (base : Nat)
  | float
  | bool
  | moment
deriving DecidableEq, Repr

/-- Why two moments cannot be put in order. -/
inductive MomentClash where
  /-- One of them is a date, the other one a time. -/
  | dateAndTime
  /-- Only one of them has an offset from universal time. -/
  | offsets
deriving DecidableEq, Repr

/-- The causes for which reading, resolving and writing stop. -/
inductive Fault where
  /-- A value of this kind does not offer the facility. -/
  | lacks (kind : Value.Kind) (facility : Facility)
  | notIterable (kind : Value.Kind)
  | noAssignment (kind : Value.Kind)
  | unhashable (kind : Value.Kind)
  | notSerialisable (kind : Value.Kind)
  /-- A value of this kind cannot be a key; its name is given in full or without the library. -/
  | badKey (kind : Value.Kind) (inFull : Bool)
  /-- A value of this kind stands where a text is matched. -/
  | notText (kind : Value.Kind)
  /-- A value of this kind stands where a path is extended. -/
  | notPath (kind : Value.Kind)
  /-- Two keys cannot be put in order. -/
  | unordered (left right : Value.Kind)
  | unorderedMoments (clash : MomentClash)
  | indexOutOfRange
  | file (cause : FileFault) (path : Text)
  /-- A path holds the character that ends the names of files. -/
  | nullInPath
  /-- A path holds halves of surrogate pairs, from a place on and as many as are counted. -/
  | unencodable (path : Text) (start count : Nat)
  /-- An integer was written with too many digits. -/
  | oversizedInteger (digits : Nat)
  /-- An integer has too many digits to be written. -/
  | unwritableInteger
  /-- A part of a number in base sixty lies too far left for a floating-point number. -/
  | oversizedWeight
  /-- A scalar that does not read as the type it was declared to have. -/
  | unreadable (declared : DeclaredType) (text : Text)
  /-- A character was written by a number that no character has. -/
  | impossibleCharacter (code : Nat)
  /-- A number was declared, and there is nothing but a sign. -/
  | emptyNumber
  | impossibleMoment (defect : Moment.Defect)
  /-- A collection that is part of itself cannot be written. -/
  | circular
  /-- Reading, or laying one mapping over another, goes on without an end. -/
  | endless
  | malformedYaml
  | malformedJson
  | malformedEncoding
deriving DecidableEq, Repr

/-- The greatest number of digits of an integer. -/
def maxIntegerDigits : Nat := 4300

/-- The wording of an impossible date or time. -/
def Moment.Defect.message : Moment.Defect → String
  | .year n => "year " ++ toString n ++ " is out of range"
  | .month => "month must be in 1..12"
  | .day => "day is out of range for month"
  | .hour => "hour must be in 0..23"
  | .minute => "minute must be in 0..59"
  | .second => "second must be in 0..59"
  | .offset minutes =>
    "offset must be a timedelta strictly between -timedelta(hours=24) and timedelta(hours=24), not "
      ++ TimeOfDay.spanDisplay minutes ++ "."

/-- The wording of a clash of moments. -/
def MomentClash.message : MomentClash → String
  | .dateAndTime => "can't compare datetime.datetime to datetime.date"
  | .offsets => "can't compare offset-naive and offset-aware datetimes"

/-- Where the symbols stand that a path cannot hold. -/
def unencodablePlace (path : Text) (start count : Nat) : String :=
  if count == 1 then
    "character '" ++ String.ofList (((path[start]?).map fun s => Text.codeEscape s.code).getD [])
      ++ "' in position " ++ toString start
  else "characters in position " ++ toString start ++ "-" ++ toString (start + count - 1)

namespace Fault

/-- The wording of a scalar that does not read as its type. -/
def unreadableMessage (text : Text) : DeclaredType → String
  | .int base =>
    "invalid literal for int() with base " ++ toString base ++ ": " ++ Text.quotedStart text
  | .float => "could not convert string to float: " ++ Text.quoted text
  | .bool => Text.quoted text
  | .moment => "'NoneType' object has no attribute 'groupdict'"

/-- The wording of a fault. Malformed input is reported by its kind alone. -/
def message? : Fault → Option String
  | lacks kind facility =>
    some ("'" ++ kind.label ++ "' object has no attribute '" ++ facility.label ++ "'")
  | notIterable kind => some ("'" ++ kind.label ++ "' object is not iterable")
  | noAssignment kind => some ("'" ++ kind.label ++ "' object does not support item assignment")
  | unhashable kind => some ("unhashable type: '" ++ kind.label ++ "'")
  | notSerialisable kind =>
    some ("Object of type " ++ kind.shortLabel ++ " is not JSON serializable")
  | badKey kind inFull =>
    some ("keys must be str, int, float, bool or None, not "
      ++ if inFull then kind.label else kind.shortLabel)
  | notText kind => some ("expected string or bytes-like object, got '" ++ kind.label ++ "'")
  | notPath kind => some ("unsupported operand type(s) for /: '" ++ kind.label ++ "' and 'str'")
  | unordered left right =>
    some ("'<' not supported between instances of '" ++ left.label ++ "' and '" ++ right.label
      ++ "'")
  | unorderedMoments clash => some clash.message
  | indexOutOfRange => some "list index out of range"
  | file cause path => some (cause.label ++ ": " ++ Text.quoted path)
  | nullInPath => some "embedded null byte"
  | unencodable path start count =>
    some ("'utf-8' codec can't encode " ++ unencodablePlace path start count
      ++ ": surrogates not allowed")
  | oversizedInteger digits =>
    some ("Exceeds the limit (" ++ toString maxIntegerDigits
      ++ " digits) for integer string conversion: value has " ++ toString digits
      ++ " digits; use sys.set_int_max_str_digits() to increase the limit")
  | unwritableInteger =>
    some ("Exceeds the limit (" ++ toString maxIntegerDigits
      ++ " digits) for integer string conversion; "
      ++ "use sys.set_int_max_str_digits() to increase the limit")
  | oversizedWeight => some "int too large to convert to float"
  | impossibleCharacter code =>
    some (if code < Nat.pow 2 31 then "chr() arg not in range(0x110000)"
      else "Python int too large to convert to C int")
  | emptyNumber => some "string index out of range"
  | unreadable declared text => some (unreadableMessage text declared)
  | impossibleMoment defect => some defect.message
  | circular => some "Circular reference detected"
  | endless => some "maximum recursion depth exceeded"
  | malformedYaml | malformedJson | malformedEncoding => none

end Fault

end DocLineage
