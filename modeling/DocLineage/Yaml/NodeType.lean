import DocLineage.Number.Numeral
import DocLineage.Text.Hex
import DocLineage.Text.Symbol

/-!
# The types of YAML nodes

A node has the type that it is declared to have; a plain scalar without a declaration has the type
that its text suggests, and is a text if it suggests none.

## Main definitions

* `Yaml.NodeType` — the types of nodes
* `Yaml.NodeType.ofName` — the type of a full name
* `Yaml.NodeType.ofPlain` — the type that the text of a plain scalar suggests
* `Yaml.MomentText` — the parts of a written date or time
-/

namespace DocLineage.Yaml

/-- The types of nodes. -/
inductive NodeType where
  | null | bool | int | float | text | bytes | moment
  | list | map | set
  /-- A list of mappings with one entry each, of which no two have the same key. -/
  | orderedMap
  /-- A list of mappings with one entry each. -/
  | pairs
  /-- The key under which a mapping names others that lend it their entries. -/
  | merge
  /-- The key under which a mapping keeps the value that it has as a scalar. -/
  | default
  | unknown
deriving DecidableEq, Repr

/-! ### The parts of a written moment -/

/-- A distance from universal time as it is written. -/
structure OffsetText where
  negative : Bool
  hours : Nat
  minutes : Nat
deriving Repr

/-- A time of day as it is written. -/
structure TimeText where
  hour : Nat
  minute : Nat
  second : Nat
  fraction : List Char
  offset : Option OffsetText
deriving Repr

/-- A date or time as it is written. -/
structure MomentText where
  year : Nat
  month : Nat
  day : Nat
  time : Option TimeText
deriving Repr

namespace MomentText

/-- A number of `least` to `most` digits at the start of a text, as many as there are. -/
def digits? (least most : Nat) (cs : List Char) : Option (Nat × List Char) :=
  let run := (cs.take most).takeWhile isDigit
  if run.length < least then none else some (digitsValue run, cs.drop run.length)

/-- What follows a character at the start of a text. -/
def after? (c : Char) : List Char → Option (List Char)
  | [] => none
  | d :: cs => if d == c then some cs else none

/-- Blanks and tabs. -/
def isGap (c : Char) : Bool := c == ' ' || c == '\t'

/-- A distance from universal time up to the end of a text; it may be missing. -/
def offset? (cs : List Char) : Option (Option OffsetText) :=
  let signed (negative : Bool) (cs : List Char) : Option (Option OffsetText) := do
    let (hours, cs) ← digits? 1 2 cs
    match cs with
    | [] => return some ⟨negative, hours, 0⟩
    | cs =>
      let (minutes, rest) ← digits? 2 2 (← after? ':' cs)
      if rest.isEmpty then return some ⟨negative, hours, minutes⟩ else none
  match cs, cs.dropWhile isGap with
  | [], _ => some none
  | _, ['Z'] => some (some ⟨false, 0, 0⟩)
  | _, '-' :: rest => signed true rest
  | _, '+' :: rest => signed false rest
  | _, _ => none

/-- A time of day up to the end of a text. -/
def time? (cs : List Char) : Option TimeText := do
  let (hour, cs) ← digits? 1 2 cs
  let (minute, cs) ← digits? 2 2 (← after? ':' cs)
  let (second, cs) ← digits? 2 2 (← after? ':' cs)
  let (fraction, cs) := match cs with
    | '.' :: cs => (cs.takeWhile isDigit, cs.dropWhile isDigit)
    | cs => ([], cs)
  return ⟨hour, minute, second, fraction, ← offset? cs⟩

/-- The parts of a whole text: a date, and after a letter or blanks a time. -/
def ofChars? (cs : List Char) : Option MomentText := do
  let (year, cs) ← digits? 4 4 cs
  let (month, cs) ← digits? 1 2 (← after? '-' cs)
  let (day, cs) ← digits? 1 2 (← after? '-' cs)
  match cs with
  | [] => return ⟨year, month, day, none⟩
  | c :: rest =>
    if c == 'T' || c == 't' then return ⟨year, month, day, some (← time? rest)⟩
    else if isGap c then return ⟨year, month, day, some (← time? (rest.dropWhile isGap))⟩
    else none

end MomentText

/-! ### What a plain scalar suggests -/

/-- Digits and the low lines that group them. -/
def isDigitOrMark (c : Char) : Bool := isDigit c || c == '_'

/-- What follows the whole part of a number: digits and low lines after a first digit. -/
def afterWhole? : List Char → Option (List Char)
  | [] => none
  | c :: cs => if isDigit c then some (cs.dropWhile isDigitOrMark) else none

/-- An exponent with a sign, or nothing. -/
def isExponent : List Char → Bool
  | [] => true
  | e :: sign :: digits =>
    (e == 'e' || e == 'E') && (sign == '-' || sign == '+') && !digits.isEmpty && digits.all isDigit
  | _ => false

/-- What follows one or more parts of a number in base sixty, each after a colon. -/
def afterSixtieths? (cs : List Char) : Option (List Char) :=
  let rec go (seen : Bool) : List Char → Option (List Char)
    | ':' :: a :: b :: rest =>
      if isDigit a && isDigit b then (if a ≤ '5' then go true rest else none)
      else if isDigit a then go true (b :: rest)
      else none
    | [':', a] => if isDigit a then some [] else none
    | rest => if seen then some rest else none
  go false cs

/-- A point with digits and low lines behind it. -/
def isFraction : List Char → Bool
  | '.' :: cs => cs.all isDigitOrMark
  | _ => false

/-- The text of a floating-point number. -/
def isFloatText (cs : List Char) : Bool :=
  let unsigned := (splitSign cs).2
  let decimal := match afterWhole? unsigned with
    | some ('.' :: rest) => isExponent (rest.dropWhile isDigitOrMark)
    | _ => false
  let fractional := match cs with
    | '.' :: rest => (afterWhole? rest).any isExponent
    | _ => false
  let sixtieths := ((afterWhole? unsigned).bind afterSixtieths?).any isFraction
  decimal || fractional || sixtieths || [".inf", ".Inf", ".INF"].contains (String.ofList unsigned)
    || [".nan", ".NaN", ".NAN"].contains (String.ofList cs)

/-- The text of an integer. -/
def isIntText (cs : List Char) : Bool :=
  match (splitSign cs).2 with
  | ['0'] => true
  | '0' :: 'b' :: ds => !ds.isEmpty && ds.all fun c => c == '0' || c == '1' || c == '_'
  | '0' :: 'x' :: ds => !ds.isEmpty && ds.all fun c => (Text.hexValue? c).isSome || c == '_'
  | '0' :: ds => ds.all fun c => ('0' ≤ c && c ≤ '7') || c == '_'
  | ds =>
    match afterWhole? ds with
    | some [] => true
    | some rest => afterSixtieths? rest == some []
    | none => false

/-- The text of a date, with all its digits unless there is a time. -/
def isMomentText (cs : List Char) : Bool :=
  match MomentText.ofChars? cs with
  | some m => m.time.isSome || cs.length == 10
  | none => false

/-- The texts of truth values. -/
def boolTexts : List String :=
  ["yes", "Yes", "YES", "no", "No", "NO", "true", "True", "TRUE", "false", "False", "FALSE",
   "on", "On", "ON", "off", "Off", "OFF"]

/-- The texts of the absent value. -/
def nullTexts : List String := ["", "~", "null", "Null", "NULL"]

/-- The texts that are set apart for the marks of the language itself. -/
def reservedTexts : List String := ["!", "&", "*"]

/-- A text without the line feed at its end, if there is one. -/
def withoutLineFeed (t : Text) : Text := if t.getLast? == some (.char '\n') then t.dropLast else t

namespace NodeType

/-- The type that a line suggests. -/
def ofLine (s : String) : NodeType :=
  let cs := s.toList
  if boolTexts.contains s then .bool
  else if isFloatText cs then .float
  else if isIntText cs then .int
  else if s == "<<" then .merge
  else if nullTexts.contains s then .null
  else if isMomentText cs then .moment
  else if s == "=" then .default
  else if reservedTexts.contains s then .unknown
  else .text

/-- The type that the text of a plain scalar suggests. A line feed at the end does not count, unless
there is nothing before it. -/
def ofPlain (t : Text) : NodeType :=
  if t == "\n" then .text
  else
    match (withoutLineFeed t).toString? with
    | some line => ofLine line
    | none => .text

/-- The common start of the names of the types. -/
def namePrefix : String := "tag:yaml.org,2002:"

/-- The types by the ends of their names. -/
def shortNames : List (String × NodeType) :=
  [("null", .null), ("bool", .bool), ("int", .int), ("float", .float), ("str", .text),
   ("binary", .bytes), ("timestamp", .moment), ("seq", .list), ("map", .map), ("set", .set),
   ("omap", .orderedMap), ("pairs", .pairs), ("merge", .merge), ("value", .default)]

/-- The type of a full name. -/
def ofName (name : String) : NodeType :=
  ((shortNames.find? fun e => namePrefix ++ e.1 == name).map Prod.snd).getD .unknown

end NodeType

end DocLineage.Yaml
