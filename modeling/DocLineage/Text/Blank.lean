import DocLineage.Text.Symbol

/-!
# Blank symbols

Which symbols separate words in a tag value, and which texts count as empty. The class is the
Unicode white space together with the four information separators `U+001C` to `U+001F`; the
zero-width characters (`U+180E`, `U+200B`, `U+FEFF`) are not blank.

## Main definitions

* `Text.isBlankChar` — the class of blank characters
* `Text.IsBlank` / `Text.isBlank` — texts of blank symbols only, as a proposition and a test
* `Text.firstWord` — the first run of symbols that are not blank

## Main results

* `Text.isBlank_iff` — the test decides the proposition
* `Text.firstWord_eq_nil_iff` — a text has an empty first word exactly when it is blank
-/

namespace DocLineage.Text

/-- A blank character: Unicode white space, or one of the separators `U+001C` to `U+001F`. -/
def isBlankChar (c : Char) : Bool :=
  let n := c.toNat
  (0x09 ≤ n && n ≤ 0x0D) || (0x1C ≤ n && n ≤ 0x20) || n == 0x85 || n == 0xA0 || n == 0x1680 ||
    (0x2000 ≤ n && n ≤ 0x200A) || n == 0x2028 || n == 0x2029 || n == 0x202F || n == 0x205F ||
    n == 0x3000

/-- A blank symbol is a blank character. -/
def isBlankSymbol (s : Symbol) : Bool := s.isIn isBlankChar

/-- Every symbol of the text is blank; the empty text is blank. -/
def IsBlank (t : Text) : Prop := ∀ s ∈ t, isBlankSymbol s = true

/-- Tests whether every symbol of the text is blank. -/
def isBlank (t : Text) : Bool := t.all isBlankSymbol

theorem isBlank_iff {t : Text} : t.isBlank = true ↔ t.IsBlank := by
  simp [isBlank, IsBlank]

/-- The first blank-delimited word of a text, empty when the text is blank. -/
def firstWord (t : Text) : Text :=
  (t.dropWhile isBlankSymbol).takeWhile fun s => !isBlankSymbol s

/-- A first word contains no blank symbol. -/
theorem not_isBlankSymbol_of_mem_firstWord {t : Text} {s : Symbol} (h : s ∈ t.firstWord) :
    isBlankSymbol s = false := by
  unfold firstWord at h
  generalize t.dropWhile isBlankSymbol = ds at h
  induction ds with
  | nil => simp at h
  | cons d ds ih =>
    rw [List.takeWhile_cons] at h
    split at h
    · rcases List.mem_cons.mp h with rfl | h
      · simpa using ‹(!isBlankSymbol s) = true›
      · exact ih h
    · simp at h

/-- A text has an empty first word exactly when it is blank. -/
theorem firstWord_eq_nil_iff {t : Text} : t.firstWord = [] ↔ t.IsBlank := by
  induction t with
  | nil => simp [firstWord, IsBlank]
  | cons s t ih =>
    by_cases hs : isBlankSymbol s = true
    · simpa [firstWord, IsBlank, List.dropWhile_cons, hs] using ih
    · simp [firstWord, IsBlank, hs]

end DocLineage.Text
