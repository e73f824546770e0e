import DocLineage.Fault

/-!
# Cursors

A place in a YAML text: what is left to read, and the line and the column that have been reached.

## Main definitions

* `Yaml.Cursor` — the place
* `Yaml.Cursor.next`, `Yaml.Cursor.skip` — one character, or several, read
* `Yaml.Cursor.lineBreak?` — a line break read, in its normal form
* `Yaml.isPrintable` — the characters that a YAML text may hold
-/

namespace DocLineage.Yaml

/-- The byte order mark, which takes no column. -/
def byteOrderMark : Char := Char.ofNat 0xFEFF

/-- The characters that a YAML text may hold. -/
def isPrintable (c : Char) : Bool :=
  let n := c.toNat
  n == 0x09 || n == 0x0A || n == 0x0D || (0x20 ≤ n && n ≤ 0x7E) || n == 0x85 ||
    (0xA0 ≤ n && n ≤ 0xFFFD) || 0x10000 ≤ n

/-- Characters that end a line. -/
def isBreak (c : Char) : Bool :=
  c == '\n' || c == '\r' || c.toNat == 0x85 || c.toNat == 0x2028 || c.toNat == 0x2029

/-- A line break or the end of the text. -/
def endsLine (c : Option Char) : Bool := c.all isBreak

/-- A blank, a tab, a line break, or the end of the text. -/
def endsWord (c : Option Char) : Bool := c.all fun c => c == ' ' || c == '\t' || isBreak c

/-- A blank, a line break, or the end of the text. -/
def endsField (c : Option Char) : Bool := c.all fun c => c == ' ' || isBreak c

/-- ASCII letters and digits, the hyphen and the low line. -/
def isNameChar (c : Char) : Bool := c.isAlphanum || c == '-' || c == '_'

/-- A place in a text. `left` counts the characters in `rest`. -/
structure Cursor where
  rest : List Char
  left : Nat
  line : Nat := 0
  column : Nat := 0

namespace Cursor

/-- The place before the first character of a text. -/
def ofString (s : String) : Cursor := { rest := s.toList, left := s.length }

/-- The character at a distance, if the text reaches as far. -/
def peekAt (c : Cursor) (n : Nat) : Option Char := c.rest[n]?

/-- The next character. -/
def peek (c : Cursor) : Option Char := c.rest.head?

/-- The next character is the given one. -/
def isAt (c : Cursor) (ch : Char) : Bool := c.peek == some ch

/-- The place after the next character. -/
def next (c : Cursor) : Cursor :=
  match c.rest with
  | [] => c
  | ch :: rest =>
    if isBreak ch && !(ch == '\r' && rest.head? == some '\n') then
      { rest, left := c.left - 1, line := c.line + 1, column := 0 }
    else if ch == byteOrderMark then { c with rest, left := c.left - 1 }
    else { c with rest, left := c.left - 1, column := c.column + 1 }

/-- The place after some characters. -/
def skip (c : Cursor) : Nat → Cursor
  | 0 => c
  | n + 1 => c.next.skip n

/-- The longest run of characters of a class, and the place after it. -/
def takeWhile (c : Cursor) (p : Char → Bool) : List Char × Cursor :=
  let run := c.rest.takeWhile p
  (run, c.skip run.length)

/-- The place after the longest run of characters of a class. -/
def skipWhile (c : Cursor) (p : Char → Bool) : Cursor := (c.takeWhile p).2

/-- The place after any blanks. -/
def skipBlanks (c : Cursor) : Cursor := c.skipWhile (· == ' ')

/-- The place after a comment, if one is next. -/
def skipComment (c : Cursor) : Cursor :=
  if c.isAt '#' then c.skipWhile (!isBreak ·) else c

/-- The line break that is next, and the place after it. All but the two Unicode separators are
read as a line feed. -/
def lineBreak? (c : Cursor) : Option (Char × Cursor) :=
  match c.rest with
  | '\r' :: '\n' :: _ => some ('\n', c.skip 2)
  | ch :: _ =>
    if ch.toNat == 0x2028 || ch.toNat == 0x2029 then some (ch, c.next)
    else if isBreak ch then some ('\n', c.next)
    else none
  | [] => none

/-- The place after a line break, if one is next. -/
def skipBreak (c : Cursor) : Cursor := (c.lineBreak?.map Prod.snd).getD c

/-- The line starts with a mark that stands between documents. -/
def atSeparator (c : Cursor) : Bool :=
  let mark := c.rest.take 3
  (mark == ['-', '-', '-'] || mark == ['.', '.', '.']) && endsWord (c.peekAt 3)

/-- The rest of a line that may hold nothing but blanks and a comment, and its break. -/
def finishLine (c : Cursor) : Except Fault Cursor :=
  let c := c.skipBlanks.skipComment
  if endsLine c.peek then .ok c.skipBreak else .error .malformedYaml

end Cursor

end DocLineage.Yaml
