import DocLineage.Number.Numeral
import DocLineage.Yaml.ScalarText
import DocLineage.Yaml.Token

/-!
# Cutting a YAML stream into tokens

Outside of brackets the structure of a stream follows from its columns: a lexer keeps the columns of
the open collections and closes those that lie to the right of the next token. A simple key is
recognised only at the colon behind it, so the places where one may have started are remembered, and
the marks of a key are inserted there later.

## Main definitions

* `Yaml.SimpleKey` — a place where a simple key may have started
* `Yaml.Lexer` — the state of a lexer
* `Yaml.Lexer.fetch` — the next token, with the marks that come before it
* `Yaml.tokens` — the tokens of a stream
-/

namespace DocLineage.Yaml

/-- A place where a simple key may have started. -/
structure SimpleKey where
  /-- The number of tokens before the key. -/
  tokenNumber : Nat
  /-- The place has to be a key, since a mapping goes on there. -/
  required : Bool
  start : Cursor

/-- The state of a lexer. -/
structure Lexer where
  cursor : Cursor
  tokens : Array Token := #[]
  /-- The number of open brackets. -/
  flowLevel : Nat := 0
  /-- The column of the innermost block collection, or -1. -/
  indent : Int := -1
  /-- The columns of the block collections around it. -/
  indents : List Int := []
  /-- A simple key may start at the next token. -/
  allowsKey : Bool := true
  /-- The possible simple keys, by the number of brackets open at them. -/
  keys : List (Nat × SimpleKey) := []

namespace Lexer

/-- The longest distance between the start of a simple key and its colon. -/
def maxKeyLength : Nat := 1024

/-- The lexer with a token emitted. -/
def emit (l : Lexer) (t : Token) : Lexer := { l with tokens := l.tokens.push t }

/-- The lexer after some characters. -/
def skip (l : Lexer) (n : Nat) : Lexer := { l with cursor := l.cursor.skip n }

/-- The lexer stands outside of all brackets. -/
def inBlock (l : Lexer) : Bool := l.flowLevel == 0

/-! ### Simple keys -/

/-- The possible key cannot be completed any more. -/
def isStale (l : Lexer) (key : SimpleKey) : Bool :=
  key.start.line != l.cursor.line || key.start.left > l.cursor.left + maxKeyLength

/-- The lexer without the possible keys that cannot be completed any more. -/
def dropStaleKeys (l : Lexer) : Except Fault Lexer :=
  if l.keys.any fun e => l.isStale e.2 && e.2.required then .error .malformedYaml
  else .ok { l with keys := l.keys.filter fun e => !l.isStale e.2 }

/-- The lexer without a possible key at the present number of brackets. -/
def dropKey (l : Lexer) : Except Fault Lexer :=
  match l.keys.lookup l.flowLevel with
  | some key =>
    if key.required then .error .malformedYaml
    else .ok { l with keys := l.keys.filter fun e => e.1 != l.flowLevel }
  | none => .ok l

/-- The lexer with a possible key at the next token, if one is allowed there. -/
def saveKey (l : Lexer) : Except Fault Lexer := do
  let required := l.inBlock && l.indent == l.cursor.column
  if l.allowsKey then
    let l ← l.dropKey
    let key : SimpleKey := { tokenNumber := l.tokens.size, required, start := l.cursor }
    return { l with keys := (l.flowLevel, key) :: l.keys }
  else return l

/-! ### Indentation -/

/-- How many of the innermost collections lie to the right of a column. -/
def overhang (column : Int) (indent : Int) : List Int → Nat
  | [] => if column < indent then 1 else 0
  | outer :: indents => if column < indent then overhang column outer indents + 1 else 0

/-- The lexer with the innermost collection closed. -/
def closeBlock (l : Lexer) : Lexer :=
  { l.emit .blockEnd with indent := l.indents.headD (-1), indents := l.indents.drop 1 }

/-- The lexer with the collections closed that lie to the right of a column. Inside brackets the
indentation has no meaning. -/
def unwind (l : Lexer) (column : Int) : Lexer :=
  if l.inBlock then (overhang column l.indent l.indents).repeat closeBlock l else l

/-- A collection starts at a column, unless one is open there: the lexer, and whether it does. -/
def openBlock (l : Lexer) (column : Int) : Lexer × Bool :=
  if l.indent < column then
    ({ l with indents := l.indent :: l.indents, indent := column }, true)
  else (l, false)

/-- A collection starts at the next token, unless one is open there. -/
def openBlockHere (l : Lexer) (start : Token) : Lexer :=
  match l.openBlock l.cursor.column with
  | (l, true) => l.emit start
  | (l, false) => l

/-! ### Blanks, comments and directives -/

/-- The place of the next token. After a line break outside of brackets a simple key may start. -/
def skipToToken (inBlock allowsKey : Bool) (c : Cursor) : Cursor × Bool :=
  let c' := c.skipBlanks.skipComment
  match c'.lineBreak? with
  | none => (c', allowsKey)
  | some (_, c'') =>
    if c''.left < c.left then skipToToken inBlock (allowsKey || inBlock) c'' else (c', allowsKey)
termination_by c.left

/-- The handle of a type, and the place after it. -/
def tagHandle (c : Cursor) : Except Fault (String × Cursor) :=
  if !c.isAt '!' then .error .malformedYaml
  else if c.peekAt 1 == some ' ' then .ok ("!", c.next)
  else
    let (name, c) := c.next.takeWhile isNameChar
    if c.isAt '!' then .ok (String.ofList ('!' :: name ++ ['!']), c.next)
    else .error .malformedYaml

/-- The characters that may stand in the name of a type. -/
def isUriChar (c : Char) : Bool :=
  c.isAlphanum || "-;/?:@&=+$,_.!~*'()[]%".contains c

/-- The bytes of a run of characters in which each byte may be written as a percent sign and two
hexadecimal digits. -/
def uriBytes : List Char → Option (List UInt8)
  | [] => some []
  | '%' :: a :: b :: cs => do
    let n ← Text.ofHexDigits? [a, b]
    return UInt8.ofNat n :: (← uriBytes cs)
  | '%' :: _ => none
  | c :: cs => do return c.toUInt8 :: (← uriBytes cs)

/-- The name of a type or its start, and the place after it. -/
def tagUri (c : Cursor) : Except Fault (String × Cursor) :=
  let (run, c) := c.takeWhile isUriChar
  match run, uriBytes run with
  | [], _ | _, none => .error .malformedYaml
  | _, some bytes =>
    match String.fromUTF8? ⟨bytes.toArray⟩ with
    | some s => .ok (s, c)
    | none => .error .malformedYaml

/-- A decimal number, of which there may not be too many digits, and the place after it. -/
def decimalNumber (c : Cursor) : Except Fault (Nat × Cursor) :=
  let (digits, c) := c.takeWhile isDigit
  if digits.isEmpty then .error .malformedYaml
  else if maxIntegerDigits < digits.length then .error (.oversizedInteger digits.length)
  else .ok (digitsValue digits, c)

/-- A version number of the form `major.minor`, and the place after it. -/
def versionNumber (c : Cursor) : Except Fault (Nat × Cursor) := do
  let (major, c) ← decimalNumber c.skipBlanks
  if !c.isAt '.' then throw .malformedYaml
  let (_, c) ← decimalNumber c.next
  if endsField c.peek then return (major, c) else throw .malformedYaml

/-- A directive, from the percent sign to the end of its line. -/
def directive (c : Cursor) : Except Fault (Token × Cursor) := do
  let (name, c) := c.next.takeWhile isNameChar
  if name.isEmpty || !endsField c.peek then throw .malformedYaml
  let (token, c) ← match String.ofList name with
    | "YAML" => do
      let (major, c) ← versionNumber c
      pure (Token.versionDirective major, c)
    | "TAG" => do
      let (handle, c) ← tagHandle c.skipBlanks
      if !c.isAt ' ' then throw .malformedYaml
      let (start, c) ← tagUri c.skipBlanks
      if !endsField c.peek then throw .malformedYaml
      pure (Token.tagDirective handle start, c)
    | _ => pure (Token.otherDirective, c.skipWhile (!isBreak ·))
  return (token, ← c.finishLine)

/-! ### Tokens -/

/-- The name after the mark of an anchor or an alias, and the place after it. -/
def anchorName (c : Cursor) : Except Fault (String × Cursor) :=
  let (name, c) := c.next.takeWhile isNameChar
  if name.isEmpty || !(endsWord c.peek || c.peek.any ("?:,]\x7d%@`".contains ·)) then
    .error .malformedYaml
  else .ok (String.ofList name, c)

/-- The spelling of a type, and the place after it. -/
def tagName (c : Cursor) : Except Fault (TagName × Cursor) := do
  let (name, c) ←
    if c.peekAt 1 == some '<' then do
      let (suffix, c) ← tagUri (c.skip 2)
      if !c.isAt '>' then throw .malformedYaml
      pure (TagName.mk none suffix, c.next)
    else if endsWord (c.peekAt 1) then pure (TagName.mk none "!", c.next)
    else if (c.next.rest.takeWhile fun ch => !(ch == ' ' || isBreak ch)).contains '!' then do
      let (handle, c) ← tagHandle c
      let (suffix, c) ← tagUri c
      pure (TagName.mk (some handle) suffix, c)
    else do
      let (suffix, c) ← tagUri c.next
      pure (TagName.mk (some "!") suffix, c)
  if endsField c.peek then return (name, c) else throw .malformedYaml

/-- The end of the stream closes all collections. -/
def fetchEnd (l : Lexer) : Except Fault Lexer := do
  let l ← (l.unwind (-1)).dropKey
  return l.emit .streamEnd

/-- A directive stands outside of all collections. -/
def fetchDirective (l : Lexer) : Except Fault Lexer := do
  let l ← (l.unwind (-1)).dropKey
  let (token, cursor) ← directive l.cursor
  return { l.emit token with cursor, allowsKey := false }

/-- A mark between documents closes all collections. -/
def fetchSeparator (l : Lexer) (token : Token) : Except Fault Lexer := do
  let l ← (l.unwind (-1)).dropKey
  return { (l.skip 3).emit token with allowsKey := false }

/-- An opening bracket may start a simple key, and a simple key may follow it. -/
def fetchFlowStart (l : Lexer) (token : Token) : Except Fault Lexer := do
  let l ← l.saveKey
  return { (l.skip 1).emit token with flowLevel := l.flowLevel + 1, allowsKey := true }

/-- A closing bracket needs an open one. -/
def fetchFlowEnd (l : Lexer) (token : Token) : Except Fault Lexer := do
  if l.inBlock then throw .malformedYaml
  let l ← l.dropKey
  return { (l.skip 1).emit token with flowLevel := l.flowLevel - 1, allowsKey := false }

/-- A comma inside brackets. -/
def fetchFlowEntry (l : Lexer) : Except Fault Lexer := do
  let l ← l.dropKey
  return { (l.skip 1).emit .flowEntry with allowsKey := true }

/-- The mark of an item starts a list outside of brackets, unless one is open there. -/
def fetchBlockEntry (l : Lexer) : Except Fault Lexer := do
  if l.inBlock && !l.allowsKey then throw .malformedYaml
  let l ← (if l.inBlock then l.openBlockHere .blockSequenceStart else l).dropKey
  return { (l.skip 1).emit .blockEntry with allowsKey := true }

/-- The mark of a key that is not simple. -/
def fetchKey (l : Lexer) : Except Fault Lexer := do
  if l.inBlock && !l.allowsKey then throw .malformedYaml
  let l ← (if l.inBlock then l.openBlockHere .blockMappingStart else l).dropKey
  return { (l.skip 1).emit .key with allowsKey := l.inBlock }

/-- The marks of a simple key, inserted where it started. A mapping starts there, unless one is open
at its column. -/
def completeKey (l : Lexer) (key : SimpleKey) : Lexer :=
  let l := { l with
    keys := l.keys.filter fun e => e.1 != l.flowLevel
    tokens := l.tokens.insertIdxIfInBounds key.tokenNumber .key
    allowsKey := false }
  if l.inBlock then
    match l.openBlock key.start.column with
    | (l, true) =>
      { l with tokens := l.tokens.insertIdxIfInBounds key.tokenNumber .blockMappingStart }
    | (l, false) => l
  else l

/-- The mark of a value, which may complete a simple key. -/
def fetchValue (l : Lexer) : Except Fault Lexer := do
  let l ← match l.keys.lookup l.flowLevel with
    | some key => pure (l.completeKey key)
    | none => do
      if l.inBlock && !l.allowsKey then throw .malformedYaml
      let l ← (if l.inBlock then l.openBlockHere .blockMappingStart else l).dropKey
      pure { l with allowsKey := l.inBlock }
  return (l.skip 1).emit .value

/-- A token that may be a simple key, read by a function of the place. -/
def fetchKeyLike (l : Lexer) (read : Cursor → Except Fault (Token × Cursor)) :
    Except Fault Lexer := do
  let l ← l.saveKey
  let (token, cursor) ← read l.cursor
  return { l.emit token with cursor, allowsKey := false }

/-- A block of lines; a simple key may follow it. -/
def fetchBlockScalar (l : Lexer) (folded : Bool) : Except Fault Lexer := do
  let l ← l.dropKey
  let (text, cursor) ← l.cursor.block folded l.indent
  return { l.emit (.scalar (Text.ofChars text) false) with cursor, allowsKey := true }

/-- A plain scalar. A simple key may follow it on a further line. -/
def fetchPlain (l : Lexer) : Except Fault Lexer := do
  let l ← l.saveKey
  let (text, allowsKey, cursor) := l.cursor.plain (!l.inBlock) (l.indent + 1)
  return { l.emit (.scalar (Text.ofChars text) true) with cursor, allowsKey }

/-- A scalar between quotes. -/
def quotedScalar (double : Bool) (c : Cursor) : Except Fault (Token × Cursor) := do
  let (text, c) ← c.quoted double
  return (.scalar text false, c)

/-- The next character may start a plain scalar. -/
def startsPlain (l : Lexer) (c : Char) : Bool :=
  !(endsWord (some c) || "-?:,[]\x7b\x7d#&*!|>'\"%@`".contains c) ||
    (!endsWord (l.cursor.peekAt 1) && (c == '-' || (l.inBlock && (c == '?' || c == ':'))))

/-- The next token, chosen by the character it starts with. -/
def fetchAt (l : Lexer) (c : Char) : Except Fault Lexer :=
  let atStart := l.cursor.column == 0
  let aloneNext := endsWord (l.cursor.peekAt 1)
  if c == '%' && atStart then l.fetchDirective
  else if c == '-' && atStart && l.cursor.atSeparator then l.fetchSeparator .documentStart
  else if c == '.' && atStart && l.cursor.atSeparator then l.fetchSeparator .documentEnd
  else if c == '[' then l.fetchFlowStart .flowSequenceStart
  else if c == '\x7b' then l.fetchFlowStart .flowMappingStart
  else if c == ']' then l.fetchFlowEnd .flowSequenceEnd
  else if c == '\x7d' then l.fetchFlowEnd .flowMappingEnd
  else if c == ',' then l.fetchFlowEntry
  else if c == '-' && aloneNext then l.fetchBlockEntry
  else if c == '?' && (!l.inBlock || aloneNext) then l.fetchKey
  else if c == ':' && (!l.inBlock || aloneNext) then l.fetchValue
  else if c == '*' then l.fetchKeyLike fun c => (anchorName c).map fun (s, c) => (.alias s, c)
  else if c == '&' then l.fetchKeyLike fun c => (anchorName c).map fun (s, c) => (.anchor s, c)
  else if c == '!' then l.fetchKeyLike fun c => (tagName c).map fun (s, c) => (.tag s, c)
  else if c == '|' && l.inBlock then l.fetchBlockScalar false
  else if c == '>' && l.inBlock then l.fetchBlockScalar true
  else if c == '\'' then l.fetchKeyLike (quotedScalar false)
  else if c == '"' then l.fetchKeyLike (quotedScalar true)
  else if l.startsPlain c then l.fetchPlain
  else .error .malformedYaml

/-- The lexer at the next token, with the collections closed that the token does not belong to. -/
def settle (l : Lexer) : Except Fault Lexer := do
  let (cursor, allowsKey) := skipToToken l.inBlock l.allowsKey l.cursor
  let l ← { l with cursor, allowsKey : Lexer }.dropStaleKeys
  return l.unwind cursor.column

/-- The next token, with the marks that come before it; at the end of the stream the flag is set. -/
def fetch (l : Lexer) : Except Fault (Lexer × Bool) := do
  let l ← l.settle
  match l.cursor.peek with
  | none => return (← l.fetchEnd, true)
  | some c => return (← l.fetchAt c, false)

/-- The tokens that are known whatever follows. Marks may still be inserted where a simple key may
have started. -/
def settledTokens (l : Lexer) : List Token :=
  let pending := l.keys.filter fun e => !l.isStale e.2
  let bound := pending.foldl (fun n e => min n e.2.tokenNumber) l.tokens.size
  l.tokens.toList.take bound

/-- The tokens up to the end of the stream, or those that are known before a fault. Every token but
the last reads something. -/
def run (l : Lexer) : List Token × Option Fault :=
  match l.fetch with
  | .error fault => (l.settledTokens, some fault)
  | .ok (l', true) => (l'.tokens.toList, none)
  | .ok (l', false) =>
    if l'.cursor.left < l.cursor.left then run l' else (l.settledTokens, some .malformedYaml)
termination_by l.cursor.left

end Lexer

/-- The tokens of a stream, up to its end or a fault. A byte order mark at its start is passed
over. -/
def tokens (s : String) : List Token × Option Fault :=
  let c := Cursor.ofString s
  if !s.toList.all isPrintable then ([], some .malformedYaml)
  else Lexer.run { cursor := if c.isAt byteOrderMark then c.next else c }

end DocLineage.Yaml
