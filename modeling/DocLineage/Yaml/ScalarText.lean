import DocLineage.Text.Hex
import DocLineage.Yaml.Cursor

/-!
# The text of scalars

Scalars are written plain, between quotes, or as blocks of lines. In the first two styles a single
line break is read as a blank and further ones stand for themselves; blocks either keep their breaks
or fold them in the same way.

Every loop below goes on only after it has read something.

## Main definitions

* `Yaml.Cursor.plain` — a plain scalar
* `Yaml.Cursor.quoted` — a scalar between quotes
* `Yaml.Cursor.block` — a block of lines
-/

namespace DocLineage.Yaml

/-- A line break in its normal form, folded: a single line feed becomes a blank, and one before
further breaks is dropped. -/
def fold (first : Char) (further : List Char) : List Char :=
  if first != '\n' then first :: further
  else if further.isEmpty then [' ']
  else further

namespace Cursor

/-! ### Plain scalars -/

/-- The characters that a plain scalar may not go on with. Inside brackets these include the marks
of lists and mappings. -/
def endsPlain (inFlow : Bool) : List Char → Bool
  | [] => true
  | c :: cs =>
    endsWord (some c) ||
      (c == ':' && (endsWord cs.head? || (inFlow && (cs.head?.any (",[]\x7b\x7d".contains ·))))) ||
      (inFlow && ",?[]\x7b\x7d".contains c)

/-- The length of the longest run that belongs to a plain scalar. -/
def plainLength (inFlow : Bool) : List Char → Nat
  | [] => 0
  | c :: cs => if endsPlain inFlow (c :: cs) then 0 else plainLength inFlow cs + 1

/-- The blanks and line breaks at the start of further lines: the breaks, and the place after them.
Nothing is returned when a line starts with a mark that stands between documents. -/
def furtherBreaks (c : Cursor) (breaks : List Char) : Option (List Char) × Cursor :=
  let c' := c.skipBlanks
  match c'.lineBreak? with
  | none => (some breaks, c')
  | some (b, c'') =>
    if c''.atSeparator then (none, c'')
    else if c''.left < c.left then furtherBreaks c'' (breaks ++ [b])
    else (some breaks, c')
termination_by c.left

/-- What stands between two runs of a plain scalar. -/
structure Gap where
  /-- The gap as it is read if the scalar goes on; empty when it does not. -/
  text : List Char
  /-- The gap reached a further line. -/
  crossesLine : Bool

/-- The gap that comes next, and the place after it. -/
def gap (c : Cursor) : Gap × Cursor :=
  let (blanks, c) := c.takeWhile (· == ' ')
  match c.lineBreak? with
  | none => (⟨blanks, false⟩, c)
  | some (b, c) =>
    if c.atSeparator then (⟨[], true⟩, c)
    else
      match c.furtherBreaks [] with
      | (some breaks, c) => (⟨fold b breaks, true⟩, c)
      | (none, c) => (⟨[], true⟩, c)

/-- A plain scalar that goes on after `text` and a gap. The scalar ends at a comment, at a line that
is indented less than `indent` outside of brackets, and where nothing can be added to it. The flag
tells whether the last gap reached a further line. -/
def plainFrom (inFlow : Bool) (indent : Int) (text : List Char) (before : Gap) (c : Cursor) :
    List Char × Bool × Cursor :=
  let length := plainLength inFlow c.rest
  if c.isAt '#' || length == 0 then (text, before.crossesLine, c)
  else
    let text := text ++ before.text ++ c.rest.take length
    let (after, c') := (c.skip length).gap
    if after.text.isEmpty || c'.isAt '#' || (!inFlow && (c'.column : Int) < indent) then
      (text, after.crossesLine, c')
    else if c'.left < c.left then plainFrom inFlow indent text after c'
    else (text, after.crossesLine, c')
termination_by c.left

/-- A plain scalar: its text, whether the place after it is on a further line, and that place. -/
def plain (inFlow : Bool) (indent : Int) (c : Cursor) : List Char × Bool × Cursor :=
  plainFrom inFlow indent [] ⟨[], false⟩ c

/-! ### Quoted scalars -/

/-- The breaks of the lines that are empty, after a first break between quotes. -/
def quotedBreaks (c : Cursor) (breaks : List Char) : Except Fault (List Char × Cursor) :=
  if c.atSeparator then .error .malformedYaml
  else
    let c' := c.skipWhile fun ch => ch == ' ' || ch == '\t'
    match c'.lineBreak? with
    | none => .ok (breaks, c')
    | some (b, c'') =>
      if c''.left < c.left then quotedBreaks c'' (breaks ++ [b]) else .ok (breaks, c')
termination_by c.left

/-- The character that a letter after a backslash stands for. -/
def simpleEscape? : Char → Option Char
  | '0' => some '\x00'
  | 'a' => some '\x07'
  | 'b' => some '\x08'
  | 't' | '\t' => some '\t'
  | 'n' => some '\n'
  | 'v' => some '\x0b'
  | 'f' => some '\x0c'
  | 'r' => some '\r'
  | 'e' => some '\x1b'
  | ' ' => some ' '
  | '"' => some '"'
  | '\\' => some '\\'
  | '/' => some '/'
  | 'N' => some (Char.ofNat 0x85)
  | '_' => some (Char.ofNat 0xA0)
  | 'L' => some (Char.ofNat 0x2028)
  | 'P' => some (Char.ofNat 0x2029)
  | _ => none

/-- The number of hexadecimal digits that follow a letter after a backslash. -/
def escapeWidth? : Char → Option Nat
  | 'x' => some 2
  | 'u' => some 4
  | 'U' => some 8
  | _ => none

/-- The symbol of a code. -/
def symbolOfCode (n : Nat) : Except Fault Symbol :=
  match Symbol.ofCode? n with
  | some s => .ok s
  | none => .error (.impossibleCharacter n)

/-- The symbol whose code is written in some hexadecimal digits, and the place after them. -/
def codeEscape (width : Nat) (c : Cursor) : Except Fault (Text × Cursor) :=
  let digits := c.rest.take width
  match Text.ofHexDigits? digits with
  | some n =>
    if digits.length == width then (symbolOfCode n).map fun s => ([s], c.skip width)
    else .error .malformedYaml
  | none => .error .malformedYaml

/-- The text that an escape stands for, from the character after the backslash. -/
def escape (c : Cursor) : Except Fault (Text × Cursor) :=
  match c.peek with
  | none => .error .malformedYaml
  | some ch =>
    match simpleEscape? ch, escapeWidth? ch with
    | some e, _ => .ok ([.char e], c.next)
    | none, some width => c.next.codeEscape width
    | none, none =>
      match c.lineBreak? with
      | some (_, c) => (c.quotedBreaks []).map fun (breaks, c) => (Text.ofChars breaks, c)
      | none => .error .malformedYaml

/-- Characters that end a run between quotes. -/
def endsQuotedRun (c : Char) : Bool :=
  c == '\'' || c == '"' || c == '\\' || endsWord (some c)

/-- The blanks and breaks that are next between quotes, as they are read. -/
def quotedGap (c : Cursor) : Except Fault (List Char × Cursor) :=
  let (blanks, c) := c.takeWhile fun ch => ch == ' ' || ch == '\t'
  match c.peek, c.lineBreak? with
  | none, _ => .error .malformedYaml
  | some _, some (b, c) => do
    let (breaks, c) ← c.quotedBreaks []
    return (fold b breaks, c)
  | some _, none => .ok (blanks, c)

/-- One piece of a quoted scalar: a run, a quote or an escape that stands for a symbol, or a gap.
Nothing is returned at the closing quote. -/
def quotedPiece (double : Bool) (c : Cursor) : Except Fault (Option (Text × Cursor)) :=
  let (run, c') := c.takeWhile (!endsQuotedRun ·)
  if !run.isEmpty then .ok (some (Text.ofChars run, c'))
  else
    match c.rest with
    | '\'' :: '\'' :: _ => .ok (some ("'", if double then c.next else c.skip 2))
    | '\'' :: _ => .ok (if double then some ("'", c.next) else none)
    | '"' :: _ => .ok (if double then none else some ("\"", c.next))
    | '\\' :: _ => if double then (c.next.escape).map some else .ok (some ("\\", c.next))
    | _ => c.quotedGap.map fun (gap, c) => some (Text.ofChars gap, c)

/-- The rest of a quoted scalar after `text`, and the place after the closing quote. -/
def quotedFrom (double : Bool) (text : Text) (c : Cursor) : Except Fault (Text × Cursor) :=
  match c.quotedPiece double with
  | .error fault => .error fault
  | .ok none => .ok (text, c.next)
  | .ok (some (piece, c')) =>
    if c'.left < c.left then quotedFrom double (text ++ piece) c' else .error .malformedYaml
termination_by c.left

/-- A quoted scalar, and the place after it. -/
def quoted (double : Bool) (c : Cursor) : Except Fault (Text × Cursor) :=
  quotedFrom double [] c.next

/-! ### Blocks of lines -/

/-- What becomes of the line breaks at the end of a block. -/
inductive Chomping where
  /-- One break stays. -/
  | clip
  /-- None stays. -/
  | strip
  /-- All stay. -/
  | keep
deriving DecidableEq, Repr

/-- How a block is announced: its breaks at the end, and its further indentation. -/
structure BlockHeader where
  chomping : Chomping := .clip
  increment : Option Nat := none

/-- The chomping that a sign stands for. -/
def chomping? : Option Char → Option Chomping
  | some '+' => some .keep
  | some '-' => some .strip
  | _ => none

/-- The indentation that a digit stands for. -/
def increment? (c : Option Char) : Option Nat :=
  c.bind fun c => if c.isDigit then some (c.toNat - '0'.toNat) else none

/-- The header of a block, and the place after it: a sign and a digit in either order. -/
def blockHeader (c : Cursor) : Except Fault (BlockHeader × Cursor) :=
  let (header, c) : BlockHeader × Cursor :=
    match chomping? c.peek, increment? c.peek with
    | some chomping, _ =>
      match increment? c.next.peek with
      | some n => (⟨chomping, some n⟩, c.skip 2)
      | none => (⟨chomping, none⟩, c.next)
    | none, some n =>
      match chomping? c.next.peek with
      | some chomping => (⟨chomping, some n⟩, c.skip 2)
      | none => (⟨.clip, some n⟩, c.next)
    | none, none => ({}, c)
  if header.increment == some 0 || !endsField c.peek then .error .malformedYaml
  else .ok (header, c)

/-- The breaks of the empty lines at the start of a block without a given indentation, and the
greatest column that blanks reach. -/
def leadingLines (c : Cursor) (breaks : List Char) (reach : Nat) : List Char × Nat × Cursor :=
  let c' := c.skipBlanks
  let reach := if c.column < c'.column then max reach c'.column else reach
  match c'.lineBreak? with
  | none => (breaks, reach, c')
  | some (b, c'') =>
    if c''.left < c.left then leadingLines c'' (breaks ++ [b]) reach else (breaks, reach, c')
termination_by c.left

/-- Blanks up to a column. -/
def skipIndent (indent : Nat) (c : Cursor) : Cursor :=
  c.skip ((c.rest.take (indent - c.column)).takeWhile (· == ' ')).length

/-- The breaks of empty lines within a block of a given indentation. -/
def blockBreaks (indent : Nat) (c : Cursor) (breaks : List Char) : List Char × Cursor :=
  let c' := c.skipIndent indent
  match c'.lineBreak? with
  | none => (breaks, c')
  | some (b, c'') =>
    if c''.left < c.left then blockBreaks indent c'' (breaks ++ [b]) else (breaks, c')
termination_by c.left

/-- The character is a blank or a tab. -/
def isIndentChar (c : Option Char) : Bool := c == some ' ' || c == some '\t'

/-- The lines of a block after `text` and some breaks: the text up to the end of the last line, the
break after that line if there is one, the breaks after it, and the place after them. -/
def blockLines (folded : Bool) (indent : Nat) (text breaks : List Char) (c : Cursor) :
    List Char × List Char × List Char × Cursor :=
  let (line, c') := c.takeWhile (!isBreak ·)
  let text := text ++ breaks ++ line
  let (ending, c') := match c'.lineBreak? with
    | some (b, c') => ([b], c')
    | none => ([], c')
  let (breaks, c') := blockBreaks indent c' []
  if c'.column == indent && c'.peek.isSome then
    let joint :=
      if folded && ending == ['\n'] && !isIndentChar c.peek && !isIndentChar c'.peek then
        if breaks.isEmpty then [' '] else []
      else ending
    if c'.left < c.left then blockLines folded indent (text ++ joint) breaks c'
    else (text, ending, breaks, c')
  else (text, ending, breaks, c')
termination_by c.left

/-- A block, from the character that announces it, below a collection at the column `parent`: its
text and the place after it. -/
def block (folded : Bool) (parent : Int) (c : Cursor) : Except Fault (List Char × Cursor) := do
  let (header, c) ← c.next.blockHeader
  let c ← c.finishLine
  let least := max 1 (parent + 1).toNat
  let (indent, breaks, c) : Nat × List Char × Cursor :=
    match header.increment with
    | none =>
      let (breaks, reach, c) := c.leadingLines [] 0
      (max least reach, breaks, c)
    | some n =>
      let indent := least + n - 1
      let (breaks, c) := blockBreaks indent c []
      (indent, breaks, c)
  let (text, ending, breaks, c) :=
    if c.column == indent && c.peek.isSome then blockLines folded indent [] breaks c
    else ([], [], breaks, c)
  return match header.chomping with
    | .strip => (text, c)
    | .clip => (text ++ ending, c)
    | .keep => (text ++ ending ++ breaks, c)

end Cursor

end DocLineage.Yaml
