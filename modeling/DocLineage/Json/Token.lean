import DocLineage.Fault
import DocLineage.Number.Numeral
import DocLineage.Text.Hex
import DocLineage.Value.Basic

/-!
# JSON tokens

A JSON text is cut into marks, quoted texts and words. A word is a run of characters up to the next
blank, mark or quote; it has to be a number or one of the literal names. Since a value is always
followed by a mark or the end, the longest run is the only one that can be meant. An integer with
too many digits is a token of its own, since it matters only where a value may stand.

## Main definitions

* `Json.Token` — a mark or a scalar
* `Json.word` — the scalar that a word stands for
* `Json.tokens` — the tokens of a text
-/

namespace DocLineage.Json

/-- The pieces of a JSON text. -/
inductive Token where
  | openList | closeList | openMap | closeMap | comma | colon
  | scalar (s : Scalar)
  /-- An integer with too many digits. -/
  | oversized (digits : Nat)
deriving DecidableEq, Repr

/-- Characters that may stand between tokens. -/
def isBlank (c : Char) : Bool := c == ' ' || c == '\t' || c == '\n' || c == '\r'

/-- The mark that a character stands for. -/
def mark? : Char → Option Token
  | '[' => some .openList
  | ']' => some .closeList
  | '\x7b' => some .openMap
  | '\x7d' => some .closeMap
  | ',' => some .comma
  | ':' => some .colon
  | _ => none

/-- Reads a whole word as a number. Digits before the point have no superfluous zero; a point is
followed by a digit; a plus sign stands only in an exponent. -/
def numeral? (cs : List Char) : Option Numeral :=
  let isSound (n : Numeral) : Bool :=
    (n.whole == ['0'] || n.whole.head?.any (· != '0')) && n.fraction != some []
  if cs.head? == some '+' then none else (Numeral.ofChars? cs).filter isSound

/-- An integer, unless it has too many digits. -/
def integer (negative : Bool) (digits : List Char) : Token :=
  if maxIntegerDigits < digits.length then .oversized digits.length
  else
    let v : Int := digitsValue digits
    .scalar (.int (if negative then -v else v))

/-- The number that a numeral stands for: an integer unless there is a fraction or an exponent. -/
def number (n : Numeral) : Token :=
  match n.fraction, n.exponent with
  | none, none => integer n.negative n.whole
  | _, _ => .scalar (.float n.toBinary64)

/-- A word that is no numeral, but starts with an integer that no fraction and no exponent follows.
It is malformed, and before that the integer may have too many digits. -/
def startsOversized? (cs : List Char) : Option Nat :=
  let unsigned := if cs.head? == some '-' then cs.drop 1 else cs
  let whole := unsigned.takeWhile isDigit
  let rest := unsigned.drop whole.length
  let isExponent (cs : List Char) : Bool :=
    match cs with
    | e :: cs =>
      (e == 'e' || e == 'E') && (splitSign cs).2.head?.any isDigit
    | [] => false
  let goesOn := match rest with
    | '.' :: c :: _ => isDigit c
    | rest => isExponent rest
  if whole.head? == some '0' || goesOn || whole.length ≤ maxIntegerDigits then none
  else some whole.length

/-- The token that a word stands for. -/
def word (cs : List Char) : Except Fault Token :=
  match String.ofList cs with
  | "null" => .ok (.scalar .null)
  | "true" => .ok (.scalar (.bool true))
  | "false" => .ok (.scalar (.bool false))
  | "NaN" => .ok (.scalar (.float .nan))
  | "Infinity" => .ok (.scalar (.float .infinity))
  | "-Infinity" => .ok (.scalar (.float Binary64.infinity.neg))
  | _ =>
    match numeral? cs with
    | some n => .ok (number n)
    | none =>
      match startsOversized? cs with
      | some digits => .ok (.oversized digits)
      | none => .error .malformedJson

/-- The character that a letter after a backslash stands for. -/
def simpleEscape? : Char → Option Char
  | '"' => some '"'
  | '\\' => some '\\'
  | '/' => some '/'
  | 'b' => some '\x08'
  | 'f' => some '\x0c'
  | 'n' => some '\n'
  | 'r' => some '\r'
  | 't' => some '\t'
  | _ => none

/-- The symbol of a UTF-16 unit that stands alone. -/
def unitSymbol (unit : Nat) : Symbol := (Symbol.ofCode? unit).getD default

/-- The symbols of a run of UTF-16 units, of which two may form a pair. -/
def unitSymbols : List Nat → Text
  | [] => []
  | high :: low :: units =>
    if 0xD800 ≤ high && high < 0xDC00 && 0xDC00 ≤ low && low < 0xE000 then
      unitSymbol (0x10000 + (high - 0xD800) * 0x400 + (low - 0xDC00)) :: unitSymbols units
    else unitSymbol high :: unitSymbols (low :: units)
  | [unit] => [unitSymbol unit]

/-- Where a lexer stands. What was read of the current token is kept in reverse; `units` are the
escaped units not yet turned into symbols, in reverse. -/
inductive LexState where
  | between
  | word (read : List Char)
  | quoted (read : Text) (units : List Nat)
  | escape (read : Text) (units : List Nat)
  | hex (read : Text) (units : List Nat) (digits : List Char)
deriving Repr

/-- The text read so far with its escaped units turned into symbols, in reverse. -/
def flush (read : Text) (units : List Nat) : Text := (unitSymbols units.reverse).reverse ++ read

/-- The state and the tokens that a character between tokens leads to. -/
def lexBetween (c : Char) : LexState × List Token :=
  if isBlank c then (.between, [])
  else if c == '"' then (.quoted [] [], [])
  else
    match mark? c with
    | some t => (.between, [t])
    | none => (.word [c], [])

/-- The state and the tokens that the next character leads to. -/
def lexStep (state : LexState) (c : Char) : Except Fault (LexState × List Token) :=
  match state with
  | .between => .ok (lexBetween c)
  | .word read =>
    if isBlank c || c == '"' || (mark? c).isSome then do
      let token ← word read.reverse
      let (state, tokens) := lexBetween c
      return (state, token :: tokens)
    else .ok (.word (c :: read), [])
  | .quoted read units =>
    if c == '"' then
      .ok (.between, [.scalar (.text (flush read units).reverse)])
    else if c == '\\' then .ok (.escape read units, [])
    else if c.toNat < 0x20 then .error .malformedJson
    else .ok (.quoted (.char c :: flush read units) [], [])
  | .escape read units =>
    if c == 'u' then .ok (.hex read units [], [])
    else
      match simpleEscape? c with
      | some e => .ok (.quoted (.char e :: flush read units) [], [])
      | none => .error .malformedJson
  | .hex read units digits =>
    match Text.hexValue? c with
    | none => .error .malformedJson
    | some _ =>
      let digits := digits ++ [c]
      if digits.length < 4 then .ok (.hex read units digits, [])
      else .ok (.quoted read ((Text.ofHexDigits? digits).getD 0 :: units), [])

/-- The tokens of the rest of a text, after those read so far. What cannot be a token ends them: the
text is malformed there, whatever follows. -/
def lex (state : LexState) (done : Array Token) : List Char → Array Token × Option Fault
  | [] =>
    match state with
    | .between => (done, none)
    | .word read =>
      match word read.reverse with
      | .ok token => (done.push token, none)
      | .error fault => (done, some fault)
    | _ => (done, some .malformedJson)
  | c :: cs =>
    match lexStep state c with
    | .ok (state, tokens) => lex state (done ++ tokens) cs
    | .error fault => (done, some fault)

/-- The tokens of a text up to its end or the first fault. -/
def tokens (s : String) : List Token × Option Fault :=
  let (tokens, fault) := lex .between #[] s.toList
  (tokens.toList, fault)

end DocLineage.Json
