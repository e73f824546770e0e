import DocLineage.Json.Token
import DocLineage.Json.Writer
import Mathlib

/-!
# Texts between quotes

Between quotes a text is written by its UTF-16 units: a character that needs two of them is written
as the two halves of its pair, and so are the halves themselves where they stand alone. Reading
the units back therefore joins two halves that meet, and of all texts only those in which none do
are told by what is written of them.

## Main definitions

* `Symbol.units` — the UTF-16 units of a symbol
* `Text.IsJoined` — texts in which no two halves of a pair meet

## Main results

* `Json.tokens_quote` — a text between quotes is read back as its units are
* `Text.IsJoined.unitSymbols_units` — which is the text itself if no halves meet in it
* `Json.quote_inj` — such texts are the same if they are written alike
* `Json.eq_of_quote_eq` — a text without escapes is written like no other one
-/

namespace DocLineage

namespace Symbol

/-- The UTF-16 units of a symbol. -/
def units (s : Symbol) : List Nat :=
  if s.code < 0x10000 then [s.code]
  else [0xD800 + (s.code - 0x10000) / 0x400, 0xDC00 + (s.code - 0x10000) % 0x400]

theorem units_char_of_lt {c : Char} (h : c.toNat < 0x10000) : (char c).units = [c.toNat] :=
  if_pos h

theorem code_half_lt (n : Fin 0x800) : (half n).code < 0x10000 := by
  rw [code]
  omega

theorem units_half (n : Fin 0x800) : (half n).units = [(half n).code] := if_pos (code_half_lt n)

theorem code_lt (s : Symbol) : s.code < 0x110000 := by
  cases s with
  | char c =>
    have hc : c.toNat.isValidChar := c.valid
    simp only [Nat.isValidChar] at hc
    rw [code]
    omega
  | half n =>
    rw [code]
    omega

/-- The symbol is the half that comes first in a pair. -/
def IsHigh (s : Symbol) : Prop := 0xD800 ≤ s.code ∧ s.code < 0xDC00

/-- The symbol is the half that comes second in a pair. -/
def IsLow (s : Symbol) : Prop := 0xDC00 ≤ s.code ∧ s.code < 0xE000

instance (s : Symbol) : Decidable s.IsHigh := inferInstanceAs (Decidable (_ ∧ _))

instance (s : Symbol) : Decidable s.IsLow := inferInstanceAs (Decidable (_ ∧ _))

end Symbol

namespace Text

/-- No two halves meet that would be a pair. -/
def IsJoined (t : Text) : Prop := t.IsChain fun a b => ¬(a.IsHigh ∧ b.IsLow)

instance (t : Text) : Decidable t.IsJoined := inferInstanceAs (Decidable (List.IsChain _ _))

/-! ### Hexadecimal digits -/

theorem hexValue?_digitChar {n : Nat} (h : n < 16) : hexValue? (Nat.digitChar n) = some n := by
  have hall : ∀ k : Fin 16, hexValue? (Nat.digitChar k) = some k.val := by decide
  exact hall ⟨n, h⟩

/-- Digits are read back as the number that they were written for. -/
theorem ofHexDigits?_hexDigits {width n : Nat} (h : n < 16 ^ width) :
    ofHexDigits? (hexDigits width n) = some n := by
  induction width generalizing n with
  | zero =>
    rw [Nat.pow_zero, Nat.lt_one_iff] at h
    rw [h]
    rfl
  | succ width ih =>
    have hrest : ofHexDigits? (hexDigits width (n / 16)) = some (n / 16) :=
      ih (Nat.div_lt_of_lt_mul (by rwa [Nat.pow_succ, Nat.mul_comm] at h))
    unfold ofHexDigits? at hrest ⊢
    rw [hexDigits, List.foldl_append, hrest]
    simp [hexValue?_digitChar (Nat.mod_lt n (by decide)), Nat.div_add_mod']

theorem isSome_hexValue?_of_mem {width n : Nat} {c : Char} (h : c ∈ hexDigits width n) :
    (hexValue? c).isSome = true := by
  induction width generalizing n with
  | zero => cases h
  | succ width ih =>
    rw [hexDigits, List.mem_append, List.mem_singleton] at h
    rcases h with h | rfl
    · exact ih h
    · rw [hexValue?_digitChar (Nat.mod_lt n (by decide))]
      rfl

end Text

namespace Json

/-! ### The symbols of units -/

variable {n : Nat} {c : Char} {s t : Text}

theorem unitSymbol_code (s : Symbol) : unitSymbol s.code = s := by
  rw [unitSymbol, Symbol.ofCode?_code]
  rfl

/-- A unit that is half of no pair with the next one is a symbol of its own. -/
theorem unitSymbols_cons {us : List Nat} (h : ∀ v ∈ us.head?,
    ¬(0xD800 ≤ n ∧ n < 0xDC00 ∧ 0xDC00 ≤ v ∧ v < 0xE000)) :
    unitSymbols (n :: us) = unitSymbol n :: unitSymbols us := by
  cases us with
  | nil => rfl
  | cons v vs =>
    have hpair := h v rfl
    rw [unitSymbols, if_neg]
    simp only [Bool.and_eq_true, decide_eq_true_eq]
    omega

/-- A unit that is half of no pair parts what comes before it from what comes after. -/
theorem unitSymbols_append_cons (h : n < 0xD800 ∨ 0xE000 ≤ n) (us vs : List Nat) :
    unitSymbols (us ++ n :: vs) = unitSymbols us ++ unitSymbol n :: unitSymbols vs := by
  have hn : unitSymbols (n :: vs) = unitSymbol n :: unitSymbols vs :=
    unitSymbols_cons fun v _ => by omega
  induction us using unitSymbols.induct with
  | case1 => exact hn
  | case2 high low us hpair ih =>
    rw [List.cons_append, List.cons_append, unitSymbols, unitSymbols, if_pos hpair, if_pos hpair,
      ih, List.cons_append]
  | case3 high low us hpair ih =>
    rw [List.cons_append, List.cons_append, unitSymbols, unitSymbols, if_neg hpair, if_neg hpair,
      ← List.cons_append, ih, List.cons_append]
  | case4 u =>
    have hu : unitSymbols (u :: n :: vs) = unitSymbol u :: unitSymbols (n :: vs) :=
      unitSymbols_cons fun v hv => by
        cases hv
        omega
    rw [List.singleton_append, hu, hn]
    rfl

/-- Only the second half of a pair begins with the unit of one. -/
theorem isLow_of_head? {x : Symbol} {xs : Text} {v : Nat}
    (hv : v ∈ ((x :: xs).flatMap Symbol.units).head?) (hlow : 0xDC00 ≤ v ∧ v < 0xE000) :
    x.IsLow := by
  have hcode := x.code_lt
  rw [List.flatMap_cons, Symbol.units] at hv
  split at hv
  · cases hv
    exact hlow
  · cases hv
    omega

end Json

/-- The units of a text in which no halves meet are read back as the text. -/
theorem Text.IsJoined.unitSymbols_units {t : Text} (h : t.IsJoined) :
    Json.unitSymbols (t.flatMap Symbol.units) = t := by
  induction t with
  | nil => rfl
  | cons x xs ih =>
    have hrest := ih h.tail
    have hcode := x.code_lt
    rw [List.flatMap_cons, Symbol.units]
    split
    · next hwide =>
      rw [List.singleton_append, Json.unitSymbols_cons, Json.unitSymbol_code, hrest]
      rintro v hv ⟨hhigh, hhigh', hlow⟩
      cases xs with
      | nil => cases hv
      | cons y ys =>
        have hpair := (List.isChain_cons_cons.mp h).1
        exact hpair ⟨⟨hhigh, hhigh'⟩, Json.isLow_of_head? hv hlow⟩
    · next hwide =>
      have hvalue : 0x10000 + (0xD800 + (x.code - 0x10000) / 0x400 - 0xD800) * 0x400 +
          (0xDC00 + (x.code - 0x10000) % 0x400 - 0xDC00) = x.code := by omega
      rw [List.cons_append, List.cons_append, List.nil_append, Json.unitSymbols, if_pos, hvalue,
        Json.unitSymbol_code, hrest]
      simp only [Bool.and_eq_true, decide_eq_true_eq]
      omega

namespace Json

/-! ### Reading between quotes -/

variable {us units : List Nat} {read : Text} {n : Nat} {c : Char} {r : List Char}
  {done : Array Token}

/-- What was read between quotes stands for some units: those that were turned into symbols stay as
they are, whatever follows. -/
def Holds (us : List Nat) (read : Text) (units : List Nat) : Prop :=
  ∃ settled, us = settled ++ units.reverse ∧
    ∀ more, unitSymbols (settled ++ more) = read.reverse ++ unitSymbols more

theorem Holds.text (h : Holds us read units) : (flush read units).reverse = unitSymbols us := by
  obtain ⟨settled, rfl, hsettled⟩ := h
  rw [hsettled, flush, List.reverse_append, List.reverse_reverse]

theorem Holds.unit (h : Holds us read units) (n : Nat) : Holds (us ++ [n]) read (n :: units) := by
  obtain ⟨settled, rfl, hsettled⟩ := h
  exact ⟨settled, by simp, hsettled⟩

theorem Holds.char (h : Holds us read units) (c : Char) :
    Holds (us ++ [c.toNat]) (.char c :: flush read units) [] := by
  refine ⟨us ++ [c.toNat], by simp, fun more => ?_⟩
  have hvalid : c.toNat < 0xD800 ∨ 0xE000 ≤ c.toNat := by
    have hc : c.toNat.isValidChar := c.valid
    simp only [Nat.isValidChar] at hc
    omega
  rw [List.append_assoc, List.singleton_append, unitSymbols_append_cons hvalid, ← h.text,
    List.reverse_cons, List.append_assoc, List.singleton_append]
  congr 2
  exact unitSymbol_code (.char c)

theorem lex_cons {state : LexState} (state' : LexState) (h : lexStep state c = .ok (state', [])) :
    lex state done (c :: r) = lex state' done r := by
  simp [lex, h]

/-- An escape of four digits is read as the unit that they stand for. -/
theorem lex_unitEscape (h : n < 0x10000) : lex (.quoted read units) done (unitEscape n ++ r) =
    lex (.quoted read (n :: units)) done r := by
  obtain ⟨a, b, c, d, hdigits⟩ : ∃ a b c d, Text.hexDigits 4 n = [a, b, c, d] := by
    have hlength := Text.length_hexDigits 4 n
    match Text.hexDigits 4 n, hlength with
    | [a, b, c, d], _ => exact ⟨a, b, c, d, rfl⟩
  have hsome : ∀ x ∈ [a, b, c, d], ∃ v, Text.hexValue? x = some v := by
    intro x hx
    rw [← hdigits] at hx
    exact Option.isSome_iff_exists.mp (Text.isSome_hexValue?_of_mem hx)
  obtain ⟨va, ha⟩ := hsome a (by simp)
  obtain ⟨vb, hb⟩ := hsome b (by simp)
  obtain ⟨vc, hc⟩ := hsome c (by simp)
  obtain ⟨vd, hd⟩ := hsome d (by simp)
  have hvalue : Text.ofHexDigits? [a, b, c, d] = some n := by
    rw [← hdigits]
    exact Text.ofHexDigits?_hexDigits h
  rw [unitEscape, hdigits]
  simp only [List.cons_append, List.nil_append]
  rw [lex_cons (.escape read units) rfl, lex_cons (.hex read units []) rfl,
    lex_cons (.hex read units [a]) (by simp [lexStep, ha]),
    lex_cons (.hex read units [a, b]) (by simp [lexStep, hb]),
    lex_cons (.hex read units [a, b, c]) (by simp [lexStep, hc]),
    lex_cons (.quoted read (n :: units)) (by simp [lexStep, hd, hvalue])]

/-- An escape of one letter is read as the character that it stands for. -/
theorem lex_letterEscape {letter : Char} (hletter : (letter == 'u') = false)
    (h : simpleEscape? letter = some c) : lex (.quoted read units) done ('\\' :: letter :: r) =
      lex (.quoted (.char c :: flush read units) []) done r := by
  rw [lex_cons (.escape read units) rfl,
    lex_cons (.quoted (.char c :: flush read units) []) (by simp [lexStep, hletter, h])]

/-- What is written of a symbol is read as its units. -/
theorem lex_escapeSymbol (done : Array Token) (h : Holds us read units) (x : Symbol) :
    ∃ read' units', Holds (us ++ x.units) read' units' ∧ ∀ r,
      lex (.quoted read units) done (escapeSymbol x ++ r) =
        lex (.quoted read' units') done r := by
  have hcode := x.code_lt
  cases x with
  | half n =>
    rw [Symbol.units_half]
    exact ⟨_, _, h.unit _, fun r => lex_unitEscape (Symbol.code_half_lt n)⟩
  | char c =>
    -- the quote, the backslash and five control characters have a letter of their own
    have hletter : ∀ d letter : Char, (c == d) = true → (letter == 'u') = false →
        simpleEscape? letter = some d → d.toNat < 0x10000 → ∃ read' units',
          Holds (us ++ (Symbol.char c).units) read' units' ∧ ∀ r,
            lex (.quoted read units) done (['\\', letter] ++ r) =
              lex (.quoted read' units') done r := by
      intro d letter hc hletter hescape hlt
      rw [beq_iff_eq] at hc
      subst hc
      rw [Symbol.units_char_of_lt hlt]
      exact ⟨_, _, h.char c, fun r => lex_letterEscape hletter hescape⟩
    rw [escapeSymbol, escapeChar]
    split_ifs with hself hbreak hreturn htab hback hfeed
    · rw [Bool.or_eq_true] at hself
      rcases hself with hc | hc
      · rw [beq_iff_eq.mp hc] at hletter ⊢
        exact hletter '"' '"' rfl rfl rfl (by decide)
      · rw [beq_iff_eq.mp hc] at hletter ⊢
        exact hletter '\\' '\\' rfl rfl rfl (by decide)
    · exact hletter '\n' 'n' hbreak rfl rfl (by decide)
    · exact hletter '\r' 'r' hreturn rfl rfl (by decide)
    · exact hletter '\t' 't' htab rfl rfl (by decide)
    · exact hletter '\x08' 'b' hback rfl rfl (by decide)
    · exact hletter '\x0c' 'f' hfeed rfl rfl (by decide)
    · dsimp only
      split_ifs with hprintable hnarrow
      · -- a printable character stands for itself
        rw [Bool.and_eq_true, decide_eq_true_eq, decide_eq_true_eq] at hprintable
        rw [Bool.or_eq_true, not_or, Bool.not_eq_true, Bool.not_eq_true] at hself
        have hlt : c.toNat < 0x10000 := by omega
        rw [Symbol.units_char_of_lt hlt]
        refine ⟨_, _, h.char c, fun r => lex_cons _ ?_⟩
        simp only [lexStep, hself, Bool.false_eq_true, if_false,
          if_neg (Nat.not_lt.mpr hprintable.1)]
      · rw [Symbol.units_char_of_lt hnarrow]
        exact ⟨_, _, h.unit _, fun r => lex_unitEscape hnarrow⟩
      · -- two halves, of which neither is too large for four digits
        have hunits : (Symbol.char c).units = [0xD800 + (c.toNat - 0x10000) / 0x400,
            0xDC00 + (c.toNat - 0x10000) % 0x400] := if_neg hnarrow
        rw [Symbol.code] at hcode
        have hhigh : 0xD800 + (c.toNat - 0x10000) / 0x400 < 0x10000 := by omega
        have hlow : 0xDC00 + (c.toNat - 0x10000) % 0x400 < 0x10000 := by omega
        generalize 0xD800 + (c.toNat - 0x10000) / 0x400 = high at hunits hhigh
        generalize 0xDC00 + (c.toNat - 0x10000) % 0x400 = low at hunits hlow
        refine ⟨read, low :: high :: units, ?_, fun r => ?_⟩
        · rw [hunits, List.append_cons]
          exact (h.unit high).unit low
        · rw [List.append_assoc, lex_unitEscape hhigh, lex_unitEscape hlow]

/-- What is written of a text is read as the units of its symbols. -/
theorem lex_flatMap_escapeSymbol (done : Array Token) (h : Holds us read units) (t : Text) :
    ∃ read' units', Holds (us ++ t.flatMap Symbol.units) read' units' ∧ ∀ r,
      lex (.quoted read units) done (t.flatMap escapeSymbol ++ r) =
        lex (.quoted read' units') done r := by
  induction t generalizing us read units with
  | nil => exact ⟨read, units, by simpa using h, fun r => rfl⟩
  | cons x xs ih =>
    obtain ⟨read₁, units₁, h₁, hlex₁⟩ := lex_escapeSymbol done h x
    obtain ⟨read₂, units₂, h₂, hlex₂⟩ := ih h₁
    refine ⟨read₂, units₂, by simpa using h₂, fun r => ?_⟩
    rw [List.flatMap_cons, List.append_assoc, hlex₁, hlex₂]

/-- A text between quotes is read back as its units are. -/
theorem tokens_quote (t : Text) :
    tokens (quote t) = ([.scalar (.text (unitSymbols (t.flatMap Symbol.units)))], none) := by
  have hstart : Holds [] [] [] := ⟨[], rfl, fun more => rfl⟩
  obtain ⟨read, units, h, hlex⟩ := lex_flatMap_escapeSymbol #[] hstart t
  have hclose : lexStep (.quoted read units) '"' =
      .ok (.between, [.scalar (.text (unitSymbols (t.flatMap Symbol.units)))]) := by
    rw [← List.nil_append (t.flatMap Symbol.units), ← h.text]
    rfl
  rw [tokens, quote, String.toList_ofList, List.cons_append, lex_cons (.quoted [] []) rfl, hlex,
    lex, hclose]
  rfl

/-- Texts in which no halves meet are the same if they are written alike. -/
theorem quote_inj {s t : Text} (hs : s.IsJoined) (ht : t.IsJoined) (h : quote s = quote t) :
    s = t := by
  have htokens : tokens (quote s) = tokens (quote t) := congrArg tokens h
  rw [tokens_quote, tokens_quote, hs.unitSymbols_units, ht.unitSymbols_units] at htokens
  simpa using htokens

/-- A symbol that is not escaped is written as it is. -/
theorem ofChars_escapeSymbol {x : Symbol} (h : '\\' ∉ escapeSymbol x) :
    Text.ofChars (escapeSymbol x) = [x] := by
  cases x with
  | half n => exact absurd List.mem_cons_self h
  | char c =>
    rw [escapeSymbol, escapeChar] at h ⊢
    dsimp only at h ⊢
    -- all but a printable character begin with a backslash
    split_ifs at h ⊢ <;> first | rfl | exact absurd (by simp [unitEscape]) h

/-- A text without escapes is written like no other one. -/
theorem eq_of_quote_eq {s t : Text} (hs : '\\' ∉ s.flatMap escapeSymbol)
    (h : quote s = quote t) : s = t := by
  have hplain : ∀ t : Text, '\\' ∉ t.flatMap escapeSymbol →
      Text.ofChars (t.flatMap escapeSymbol) = t := by
    intro t ht
    induction t with
    | nil => rfl
    | cons x xs ih =>
      rw [List.flatMap_cons, List.mem_append, not_or] at ht
      have hx := ofChars_escapeSymbol ht.1
      rw [List.flatMap_cons, Text.ofChars, List.map_append]
      exact congrArg₂ (· ++ ·) hx (ih ht.2)
  have hbody : s.flatMap escapeSymbol = t.flatMap escapeSymbol := by
    have hchars := congrArg String.toList h
    simp only [quote, String.toList_ofList] at hchars
    exact List.append_cancel_right (List.cons.inj hchars).2
  rw [← hplain s hs, hbody]
  exact hplain t (hbody ▸ hs)

end Json

end DocLineage
