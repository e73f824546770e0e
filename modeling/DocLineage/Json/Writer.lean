import DocLineage.Fault
import DocLineage.Json.KeyOrder
import DocLineage.Value.Display

/-!
# Writing JSON

Values are written in ASCII, all else as escapes of UTF-16 units. Two layouts are used: files are
indented by two blanks per level, and fingerprints are taken of a text on one line with the keys of
every mapping in order.

## Main definitions

* `Json.quote` — a text between quotes
* `Json.indented` — the layout of files
* `Json.canonical` — the layout that is fingerprinted

Sets, dates, times and bytes have no JSON form, and neither has a collection that is part of itself.
Keys that are not texts are written as texts.
-/

namespace DocLineage.Json

/-- The escape of one UTF-16 unit. -/
def unitEscape (n : Nat) : List Char := '\\' :: 'u' :: Text.hexDigits 4 n

/-- The characters that stand for `c` between quotes: printable ASCII as it is, the common controls
by a letter, all else by its UTF-16 units. -/
def escapeChar (c : Char) : List Char :=
  if c == '"' || c == '\\' then ['\\', c]
  else if c == '\n' then ['\\', 'n']
  else if c == '\r' then ['\\', 'r']
  else if c == '\t' then ['\\', 't']
  else if c == '\x08' then ['\\', 'b']
  else if c == '\x0c' then ['\\', 'f']
  else
    let n := c.toNat
    if 0x20 ≤ n && n < 0x7F then [c]
    else if n < 0x10000 then unitEscape n
    else
      let m := n - 0x10000
      unitEscape (0xD800 + m / 0x400) ++ unitEscape (0xDC00 + m % 0x400)

/-- The characters that stand for a symbol between quotes; half of a pair is a unit of its own. -/
def escapeSymbol : Symbol → List Char
  | .char c => escapeChar c
  | .half n => unitEscape (Symbol.half n).code

/-- A text between quotes. -/
def quote (t : Text) : String := String.ofList ('"' :: t.flatMap escapeSymbol ++ ['"'])

/-- Floating-point numbers are spelled as elsewhere, but for the special values. -/
def numberStyle : Binary64.Style :=
  { floatStyle with nanText := "NaN", infinityText := "Infinity" }

/-- The JSON text of a scalar, or the reason why it has none. -/
def scalar (s : Scalar) : Except Fault String :=
  match s with
  | .null => .ok "null"
  | .bool b => .ok (if b then "true" else "false")
  | .int n => integerText n
  | .float x => .ok (x.toText numberStyle)
  | .text t => .ok (quote t)
  | .moment _ | .bytes _ => .error (.notSerialisable s.kind)

/-- The JSON text of a key, or the reason why it has none, in which its kind may be named in
full. -/
def key (inFull : Bool) (s : Scalar) : Except Fault String :=
  match s with
  | .text t => .ok (quote t)
  | .moment _ | .bytes _ => .error (.badKey s.kind inFull)
  | s => return quote (← scalar s)

/-! ### Indented layout -/

/-- A line break followed by the indentation of a level. -/
def lineBreak (level : Nat) : String := "\n" ++ String.ofList (List.replicate (2 * level) ' ')

/-- Parts on lines of their own between two brackets; without parts the brackets touch. -/
def block (opening closing : String) (level : Nat) (parts : List String) : String :=
  if parts.isEmpty then opening ++ closing
  else
    opening ++ lineBreak (level + 1) ++ ("," ++ lineBreak (level + 1)).intercalate parts ++
      lineBreak level ++ closing

mutual

/-- The indented text of a value at a level of nesting, inside of the collections of some names. -/
def indentedAt (names : List Nat) (level : Nat) : Value → Except Fault String
  | .scalar s => scalar s
  | .list items => return block "[" "]" level (← indentedItems names (level + 1) items)
  | .pair first second => do
    let first ← indentedAt names (level + 1) first
    return block "[" "]" level [first, ← indentedAt names (level + 1) second]
  | .set items => .error (.notSerialisable (Value.set items).kind)
  | .map entries =>
    return block "\x7b" "\x7d" level (← indentedEntries names (level + 1) entries)
  | .knot name body =>
    if names.contains name then .error .circular else indentedAt (name :: names) level body
  | .again .. => .error .circular

/-- The indented texts of the items of a list. -/
def indentedItems (names : List Nat) (level : Nat) : List Value → Except Fault (List String)
  | [] => .ok []
  | v :: vs => do
    let first ← indentedAt names level v
    return first :: (← indentedItems names level vs)

/-- The indented texts of the entries of a mapping. -/
def indentedEntries (names : List Nat) (level : Nat) :
    List (Scalar × Value) → Except Fault (List String)
  | [] => .ok []
  | (k, v) :: es => do
    let name ← key false k
    let first ← indentedAt names level v
    return (name ++ ": " ++ first) :: (← indentedEntries names level es)

end

/-- The text of a file that holds the value. -/
def indented (v : Value) : Except Fault String := indentedAt [] 0 v

/-! ### Canonical layout -/

/-- The entries written one after another; the first one without a text stops the writing. -/
def joinEntries (entries : List (Scalar × Except Fault String)) : Except Fault String := do
  let parts ← entries.mapM fun e => do
    let name ← key true e.1
    return name ++ ": " ++ (← e.2)
  return "\x7b" ++ ", ".intercalate parts ++ "\x7d"

mutual

/-- The text of a value on one line, the entries of every mapping in the order of their keys, inside
of the collections of some names. -/
def canonicalIn (names : List Nat) : Value → Except Fault String
  | .scalar s => scalar s
  | .list items => return "[" ++ ", ".intercalate (← canonicalItems names items) ++ "]"
  | .pair first second => do
    let first ← canonicalIn names first
    return "[" ++ first ++ ", " ++ (← canonicalIn names second) ++ "]"
  | .set items => .error (.notSerialisable (Value.set items).kind)
  | .map entries => do joinEntries (← sortEntries (canonicalEntries names entries))
  | .knot name body =>
    if names.contains name then .error .circular else canonicalIn (name :: names) body
  | .again .. => .error .circular

/-- The canonical texts of the items of a list. -/
def canonicalItems (names : List Nat) : List Value → Except Fault (List String)
  | [] => .ok []
  | v :: vs => do
    let first ← canonicalIn names v
    return first :: (← canonicalItems names vs)

/-- The keys of a mapping with the canonical texts of their values. -/
def canonicalEntries (names : List Nat) :
    List (Scalar × Value) → List (Scalar × Except Fault String)
  | [] => []
  | (k, v) :: es => (k, canonicalIn names v) :: canonicalEntries names es

end

/-- The text of a value on one line, the entries of every mapping in the order of their keys. -/
def canonical (v : Value) : Except Fault String := canonicalIn [] v

end DocLineage.Json
