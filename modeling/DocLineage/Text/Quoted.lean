import DocLineage.Text.Hex
import DocLineage.Text.Printable
import DocLineage.Text.Symbol

/-!
# Quoted text

How a text is shown inside quotes in messages and in the display of a compound value. Single quotes
are used unless the text contains one and no double quote. The quote in use, the backslash, and the
symbols that are not printable are written as escapes, so that a quoted text holds characters only.

## Main definitions

* `Text.quoteMark` — the quote chosen for a text
* `Text.quotedSymbol` — what stands for a symbol between the quotes
* `Text.quoted` — the quoted text
-/

namespace DocLineage.Text

/-- The escape of a code point, by the shortest of the three widths. -/
def codeEscape (n : Nat) : List Char :=
  if n < 0x100 then '\\' :: 'x' :: hexDigits 2 n
  else if n < 0x10000 then '\\' :: 'u' :: hexDigits 4 n
  else '\\' :: 'U' :: hexDigits 8 n

/-- The characters that stand for the character `c` between quotes of the kind `mark`. -/
def quotedChar (mark c : Char) : List Char :=
  if c == mark || c == '\\' then ['\\', c]
  else if c == '\n' then ['\\', 'n']
  else if c == '\r' then ['\\', 'r']
  else if c == '\t' then ['\\', 't']
  else if isPrintable c then [c]
  else codeEscape c.toNat

/-- The characters that stand for a symbol between quotes of the kind `mark`. -/
def quotedSymbol (mark : Char) : Symbol → List Char
  | .char c => quotedChar mark c
  | .half n => codeEscape (Symbol.half n).code

/-- Single quotes, unless the text holds a single quote and no double quote. -/
def quoteMark (t : Text) : Char :=
  if t.contains (.char '\'') && !t.contains (.char '"') then '"' else '\''

/-- A text between quotes, with its escapes. -/
def quoted (t : Text) : String :=
  let mark := quoteMark t
  String.ofList (mark :: t.flatMap (quotedSymbol mark) ++ [mark])

/-- The start of a quoted text, up to two hundred characters, as it is shown where a text may be of
any length. -/
def quotedStart (t : Text) : String := String.ofList (t.quoted.toList.take 200)

end DocLineage.Text
