import DocLineage.Text.CaseData
import DocLineage.Text.Symbol

/-!
# Lower-casing

Tag titles and file suffixes are compared without regard to case, by lower-casing whole texts. All
of Unicode is covered: a capital dotted I becomes two characters, and a capital sigma takes its
final form at the end of a word.

## Main definitions

* `Text.lowerChar` — the lower-case form of a character that stands alone
* `Text.endsWord` — the context in which a capital sigma takes its final form
* `Text.lower` — the lower-case form of a text
-/

namespace DocLineage.Text

/-- The character has a case. -/
def isCased (c : Char) : Bool := inRanges casedRanges c.toNat

/-- The character is passed over when the neighbours of a sigma are examined. -/
def isCaseIgnorable (c : Char) : Bool := inRanges caseIgnorableRanges c.toNat

/-- The lower-case form of a character that stands alone. -/
def lowerChar (c : Char) : List Char :=
  if c.toNat < 0x80 then [c.toLower]
  else if c.toNat == 0x130 then ['i', Char.ofNat 0x307]
  else
    match lowerRuns.find? fun r =>
      r.first ≤ c.toNat && c.toNat ≤ r.last && (c.toNat - r.first) % r.stride == 0 with
    | some r => [Char.ofNat (c.toNat + r.shift).toNat]
    | none => [c]

/-- The nearest symbol that is not passed over has a case. -/
def meetsCased (t : Text) : Bool :=
  match t.dropWhile (·.isIn isCaseIgnorable) with
  | [] => false
  | s :: _ => s.isIn isCased

/-- A sigma ends its word when a cased character precedes it and none follows it. The symbols before
it are given nearest first. -/
def endsWord (before after : Text) : Bool := meetsCased before && !meetsCased after

/-- The lower-case form of a symbol between others. -/
def lowerSymbol (before : Text) (s : Symbol) (after : Text) : Text :=
  match s with
  | .half n => [.half n]
  | .char 'Σ' => [.char (if endsWord before after then 'ς' else 'σ')]
  | .char c => ofChars (lowerChar c)

/-- Lower-cases a run of symbols; `before` holds what precedes the run, nearest first. -/
def lowerAfter (before : Text) : Text → Text
  | [] => []
  | s :: t => lowerSymbol before s t ++ lowerAfter (s :: before) t

/-- The lower-case form of a text. -/
def lower (t : Text) : Text := lowerAfter [] t

end DocLineage.Text
