/-!
# Symbols and texts

Dumps and configurations may write characters as UTF-16 units, and nothing keeps them from writing
one half of a surrogate pair without the other. A text is therefore a sequence of symbols: most of
them are characters, and a few are halves that stand alone.

## Main definitions

* `Symbol` — a character, or half of a surrogate pair
* `Symbol.code`, `Symbol.ofCode?` — symbols by their code points
* `Text` — sequences of symbols
* `Text.ofString`, `Text.toChars?` — the texts that hold nothing but characters

## Main results

* `Symbol.ofCode?_code`, `Symbol.code_inj` — a symbol is determined by its code point
* `Text.ofString_inj`, `Text.toChars?_eq_some_iff` — strings are the texts without halves
-/

namespace DocLineage

/-- A character, or half of a surrogate pair: the code point `0xD800 + n`. -/
inductive Symbol where
  | char (c : Char)
  | half (n : Fin 0x800)
deriving DecidableEq, Repr

namespace Symbol

instance : Inhabited Symbol := ⟨char ' '⟩

instance : Coe Char Symbol := ⟨char⟩

/-- The code point of a symbol. -/
def code : Symbol → Nat
  | char c => c.toNat
  | half n => 0xD800 + n.val

/-- The symbol of a code point. There is none beyond the last code point. -/
def ofCode? (n : Nat) : Option Symbol :=
  if n.isValidChar then some (char (Char.ofNat n))
  else if h : 0xD800 ≤ n ∧ n < 0xE000 then some (half ⟨n - 0xD800, by omega⟩)
  else none

/-- Reading back the code point of a symbol yields the symbol. -/
@[simp] theorem ofCode?_code (s : Symbol) : ofCode? s.code = some s := by
  cases s with
  | char c =>
    have h : c.toNat.isValidChar := c.valid
    rw [ofCode?, code, if_pos h, Char.ofNat_toNat]
  | half n =>
    have hn := n.isLt
    have h : ¬ (0xD800 + n.val).isValidChar := by
      simp only [Nat.isValidChar]
      omega
    have h' : 0xD800 ≤ 0xD800 + n.val ∧ 0xD800 + n.val < 0xE000 := by omega
    rw [ofCode?, code, if_neg h, dif_pos h']
    simp

/-- Symbols with the same code point are the same. -/
theorem code_inj {s t : Symbol} (h : s.code = t.code) : s = t := by
  have := congrArg ofCode? h
  simpa using this

instance : LT Symbol := ⟨fun s t => s.code < t.code⟩

instance : DecidableLT Symbol := fun s t => inferInstanceAs (Decidable (s.code < t.code))

/-- The symbol is a character of a class; no half of a pair is in any. -/
def isIn (p : Char → Bool) : Symbol → Bool
  | char c => p c
  | half _ => false

end Symbol

/-- A sequence of symbols. Texts are ordered by code points. -/
abbrev Text := List Symbol

namespace Text

/-- The text of some characters. -/
def ofChars (cs : List Char) : Text := cs.map .char

/-- The text of a string. -/
def ofString (s : String) : Text := ofChars s.toList

instance : Coe String Text := ⟨ofString⟩

theorem ofChars_inj {as bs : List Char} : ofChars as = ofChars bs ↔ as = bs :=
  List.map_inj_right fun _ _ h => Symbol.char.inj h

@[simp] theorem ofString_inj {s t : String} : ofString s = ofString t ↔ s = t := by
  simp [ofString, ofChars_inj, String.toList_inj]

/-- The characters of a text, unless it holds half of a pair. -/
def toChars? : Text → Option (List Char)
  | [] => some []
  | .char c :: t => (toChars? t).map (c :: ·)
  | .half _ :: _ => none

theorem toChars?_eq_some_iff {t : Text} {cs : List Char} :
    toChars? t = some cs ↔ t = ofChars cs := by
  induction t generalizing cs with
  | nil => cases cs <;> simp [toChars?, ofChars]
  | cons s t ih =>
    cases s with
    | half n => cases cs <;> simp [toChars?, ofChars]
    | char c =>
      cases cs with
      | nil => simp [toChars?, ofChars]
      | cons d ds =>
        simp only [toChars?, Option.map_eq_some_iff, ih, ofChars, List.map_cons, List.cons.injEq,
          Symbol.char.injEq]
        constructor
        · rintro ⟨_, rfl, rfl, rfl⟩
          exact ⟨rfl, rfl⟩
        · rintro ⟨rfl, h⟩
          exact ⟨ds, h, rfl, rfl⟩

/-- The string of a text, unless it holds half of a pair. -/
def toString? (t : Text) : Option String := t.toChars?.map String.ofList

/-- Texts one after the other, with another one between each two. -/
def join (between : Text) (parts : List Text) : Text := (parts.intersperse between).flatten

/-- The text comes before another one, or is the same. -/
def le (s t : Text) : Bool := decide (s ≤ t)

/-- The parts of a list between marks; there is always at least one. -/
def split {α : Type} [DecidableEq α] (mark : α) : List α → List (List α)
  | [] => [[]]
  | a :: as =>
    if a = mark then [] :: split mark as
    else
      match split mark as with
      | [] => [[a]]
      | part :: parts => (a :: part) :: parts

theorem split_ne_nil {α : Type} [DecidableEq α] (mark : α) (as : List α) : split mark as ≠ [] := by
  cases as with
  | nil => simp [split]
  | cons a as =>
    unfold split
    split
    · simp
    · cases split mark as <;> simp

/-- Between the parts stand the marks. -/
theorem flatten_intersperse_split {α : Type} [DecidableEq α] (mark : α) (as : List α) :
    ((split mark as).intersperse [mark]).flatten = as := by
  induction as with
  | nil => rfl
  | cons a as ih =>
    unfold split
    cases h : split mark as with
    | nil => exact absurd h (split_ne_nil mark as)
    | cons part parts =>
      rw [h] at ih
      split
      · next ha => cases parts <;> simp_all
      · cases parts <;> simp_all

end Text

end DocLineage
