import DocLineage.Fault
import DocLineage.Number.Shortest

/-!
# The text of a value

Fields that should be texts may hold any value in a dump; they are then read as the text that shows
the value. A text stands for itself, while texts inside a collection are quoted. Where a collection
comes back inside of itself, dots are shown in its place.

## Main definitions

* `integerText` — an integer in decimal digits, of which there may not be too many
* `Value.display` — the form of a value inside a compound one
* `Value.toText` — the form of a value by itself
-/

namespace DocLineage

/-- Floating-point numbers are positional from `10 ^ -4` to below `10 ^ 16`. -/
def floatStyle : Binary64.Style where
  leastPositional := -4
  firstExponential := 16
  nanText := "nan"
  infinityText := "inf"

/-- An integer in decimal digits. -/
def integerText (n : Int) : Except Fault String :=
  let digits := Nat.toDigits 10 n.natAbs
  if maxIntegerDigits < digits.length then .error .unwritableInteger
  else .ok (String.ofList (if n < 0 then '-' :: digits else digits))

/-- A byte between quotes: printable ASCII as it is, all else as an escape. -/
def displayByte (mark : Char) (b : UInt8) : List Char :=
  let c := Char.ofNat b.toNat
  if c == mark || c == '\\' then ['\\', c]
  else if c == '\n' then ['\\', 'n']
  else if c == '\r' then ['\\', 'r']
  else if c == '\t' then ['\\', 't']
  else if 0x20 ≤ b.toNat && b.toNat < 0x7F then [c]
  else '\\' :: 'x' :: Text.hexDigits 2 b.toNat

/-- A run of bytes between quotes. -/
def displayBytes (data : List UInt8) : String :=
  let mark := Text.quoteMark (data.map fun b => .char (Char.ofNat b.toNat))
  String.ofList ('b' :: mark :: data.flatMap (displayByte mark) ++ [mark])

/-- The form of a scalar inside a compound value. -/
def Scalar.display : Scalar → Except Fault String
  | .null => .ok "None"
  | .bool true => .ok "True"
  | .bool false => .ok "False"
  | .int n => integerText n
  | .float x => .ok (x.toText floatStyle)
  | .text t => .ok (Text.quoted t)
  | .moment m => .ok m.display
  | .bytes data => .ok (displayBytes data)

namespace Value

/-- What stands for a collection inside of itself. -/
def Kind.dots : Kind → String
  | .map => "\x7b...\x7d"
  | .pair => "(...)"
  | .set => "set(...)"
  | _ => "[...]"

/-- The form of a set: its items between braces, unless it has none. -/
def displaySet (items : List Scalar) : Except Fault String := do
  if items.isEmpty then return "set()"
  return "\x7b" ++ ", ".intercalate (← items.mapM Scalar.display) ++ "\x7d"

mutual

/-- The form of a value inside a compound one, and inside of the collections of the given names. -/
def displayIn (names : List Nat) : Value → Except Fault String
  | .scalar s => s.display
  | .list items => return "[" ++ ", ".intercalate (← displayItems names items) ++ "]"
  | .pair first second =>
    return "(" ++ (← displayIn names first) ++ ", " ++ (← displayIn names second) ++ ")"
  | .set items => displaySet items
  | .map entries =>
    return "\x7b" ++ ", ".intercalate (← displayEntries names entries) ++ "\x7d"
  | .knot name body =>
    if names.contains name then return body.kind.dots else displayIn (name :: names) body
  | .again _ kind => return kind.dots

/-- The forms of the items of a list. -/
def displayItems (names : List Nat) : List Value → Except Fault (List String)
  | [] => return []
  | v :: vs => return (← displayIn names v) :: (← displayItems names vs)

/-- The forms of the entries of a mapping. -/
def displayEntries (names : List Nat) : List (Scalar × Value) → Except Fault (List String)
  | [] => return []
  | (k, v) :: es =>
    return ((← k.display) ++ ": " ++ (← displayIn names v)) :: (← displayEntries names es)

end

/-- The form of a value inside a compound one. -/
def display (v : Value) : Except Fault String := v.displayIn []

/-- The form of a value by itself: a text as it is, a moment in plain text, all else as inside a
compound value. -/
def toText : Value → Except Fault Text
  | .scalar (.text t) => .ok t
  | .scalar (.moment m) => .ok m.text
  | v => v.display.map Text.ofString

/-- The text of a value that may be absent. -/
def toText? : Value → Except Fault (Option Text)
  | .null => .ok none
  | v => v.toText.map some

@[simp] theorem toText_text (t : Text) : (text t).toText = .ok t := rfl

@[simp] theorem toText?_ofText? (t : Option Text) : (ofText? t).toText? = .ok t := by
  cases t <;> rfl

end Value

end DocLineage
