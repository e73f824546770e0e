import DocLineage.Json.Writer
import DocLineage.Proofs.Showing
import Mathlib

/-!
# What the text of a number shows

A number is written in few characters. Its text tells an integer from a floating-point number, and
it tells whether the number is zero. For a floating-point number this needs that the search for the
shortest decimal never comes back with nothing: no point of the grids that is searched is zero, and
the last grid is fine enough to have a point below the number.

## Main definitions

* `isBare` — the characters of numbers and of the names that stand for values
* `Binary64.Interval.Reaches` — a power of ten is not above the number
* `Json.ShowsFloat` — what the text of a floating-point number shows

## Main results

* `integerText_eq_zero_iff` — the text of an integer tells whether it is zero
* `Binary64.Interval.reaches_leadingPower` — the power of ten of the first digit is not above the
  number
* `Binary64.exists_ne_zero_shortest` — the shortest decimal of a number has a digit that is not zero
* `Json.showsFloat_toText` — the text of a floating-point number tells whether it is zero, and is no
  other value's
-/

namespace DocLineage

/-- The characters of numbers and of the names that stand for values. -/
def isBare (c : Char) : Bool := c.isAlphanum || c == '-' || c == '+' || c == '.'

/-- The characters of integers. -/
def isIntegral (c : Char) : Bool := c.isDigit || c == '-'

theorem isBare_of_isDigit {c : Char} (h : c.isDigit = true) : isBare c = true := by
  simp [isBare, Char.isAlphanum, h]

theorem isBare_of_isIntegral {c : Char} (h : isIntegral c = true) : isBare c = true := by
  rw [isIntegral, Bool.or_eq_true] at h
  rcases h with h | h
  · exact isBare_of_isDigit h
  · simp [isBare, h]

/-! ### Digits -/

theorem isDigit_of_mem_digits {n : Nat} {c : Char} (h : c ∈ Nat.toDigits 10 n) :
    c.isDigit = true :=
  Nat.isDigit_of_mem_toDigits (by decide) (by decide) h

/-- Only the digits of zero are all zero. -/
theorem exists_ne_zero_digits {n : Nat} (h : 0 < n) : ∃ c ∈ Nat.toDigits 10 n, c ≠ '0' := by
  by_contra hnone
  have hall : ∀ c ∈ Nat.toDigits 10 n, c = '0' := by simpa using hnone
  have hvalue := Nat.ofDigitChars_toDigits (b := 10) (n := n) (by decide) (by decide)
  have hzero : ∀ cs : List Char, (∀ c ∈ cs, c = '0') → Nat.ofDigitChars 10 cs 0 = 0 := by
    intro cs
    induction cs with
    | nil => exact fun _ => rfl
    | cons c cs ih =>
      intro hcs
      rw [hcs c List.mem_cons_self, Nat.ofDigitChars_cons]
      exact ih fun c' hc' => hcs c' (List.mem_cons_of_mem c hc')
  rw [hzero _ hall] at hvalue
  omega

/-! ### Integers -/

/-- An integer is written in digits and at most a sign. -/
theorem isIntegral_of_integerText {n : Int} {t : String} (h : integerText n = .ok t) :
    ∀ c ∈ t.toList, isIntegral c = true := by
  unfold integerText at h
  dsimp only at h
  split at h
  · cases h
  · cases h
    intro c hc
    rw [String.toList_ofList] at hc
    have hdigit : ∀ c ∈ Nat.toDigits 10 n.natAbs, isIntegral c = true := fun c hc => by
      rw [isIntegral, isDigit_of_mem_digits hc, Bool.true_or]
    split at hc
    · rcases List.mem_cons.mp hc with rfl | hc
      · rfl
      · exact hdigit c hc
    · exact hdigit c hc

/-- Zero is the only integer that is written as such. -/
theorem integerText_eq_zero_iff {n : Int} {t : String} (h : integerText n = .ok t) :
    t = "0" ↔ n = 0 := by
  unfold integerText at h
  dsimp only at h
  split at h
  · cases h
  · cases h
    rw [← String.toList_inj, String.toList_ofList]
    constructor
    · intro htext
      by_contra hne
      obtain ⟨c, hc, hc0⟩ := exists_ne_zero_digits (Int.natAbs_pos.mpr hne)
      refine hc0 (List.mem_singleton.mp ?_)
      change c ∈ "0".toList
      rw [← htext]
      split
      · exact List.mem_cons_of_mem '-' hc
      · exact hc
    · rintro rfl
      rfl

/-! ### The search for the shortest decimal -/

namespace Binary64

namespace Interval

variable {i : Interval} {power p q : Int} {count : Nat}

/-- The interval is the one of a positive number. -/
structure IsPositive (i : Interval) : Prop where
  low : 0 < i.low
  middle : 0 < i.middle
  unitNum : 0 < i.unitNum
  unitDen : 0 < i.unitDen

/-- The power of ten is not above the number. -/
def Reaches (i : Interval) (power : Int) : Prop :=
  i.unitDen * Nat.pow 10 power.toNat ≤ i.middle * i.unitNum * Nat.pow 10 (-power).toNat

/-- Neither are lower powers. -/
theorem Reaches.mono (h : i.Reaches p) (hle : q ≤ p) : i.Reaches q := by
  have hup : Nat.pow 10 q.toNat ≤ Nat.pow 10 p.toNat :=
    Nat.pow_le_pow_right (by decide) (by omega)
  have hdown : Nat.pow 10 (-p).toNat ≤ Nat.pow 10 (-q).toNat :=
    Nat.pow_le_pow_right (by decide) (by omega)
  exact (Nat.mul_le_mul_left _ hup).trans (h.trans (Nat.mul_le_mul_left _ hdown))

/-- The power of ten of the first digit is not above the number: if the lengths of numerator and
denominator suggest a power that is, it is the one below. -/
theorem reaches_leadingPower (h : i.IsPositive) : i.Reaches i.leadingPower := by
  unfold leadingPower
  dsimp only
  split
  · next hreaches => exact hreaches
  · -- the numerator is at least, the denominator below a power of ten
    have hnum : 0 < i.middle * i.unitNum := Nat.mul_pos h.middle h.unitNum
    obtain ⟨a, ha⟩ : ∃ a, decimalLength (i.middle * i.unitNum) = a + 1 :=
      Nat.exists_eq_succ_of_ne_zero (Nat.ne_of_gt Nat.length_toDigits_pos)
    have hlow : 10 ^ a ≤ i.middle * i.unitNum := by
      by_contra hlt
      rcases Nat.eq_zero_or_pos a with rfl | hpos
      · omega
      · have hlength := (Nat.length_toDigits_le_iff (b := 10) (by decide) hpos).mpr
          (Nat.lt_of_not_le hlt)
        rw [decimalLength] at ha
        omega
    have hhigh : i.unitDen < 10 ^ decimalLength i.unitDen :=
      (Nat.length_toDigits_le_iff (b := 10) (by decide) Nat.length_toDigits_pos).mp (Nat.le_refl _)
    generalize decimalLength i.unitDen = b at hhigh
    rw [ha]
    unfold Reaches
    rcases Nat.le_total b a with hle | hle
    · have hup : ((((a + 1 : Nat) : Int) - b - 1).toNat) = a - b := by omega
      have hdown : (-((((a + 1 : Nat) : Int) - b - 1))).toNat = 0 := by omega
      rw [hup, hdown]
      calc i.unitDen * 10 ^ (a - b) ≤ 10 ^ b * 10 ^ (a - b) := Nat.mul_le_mul_right _ hhigh.le
        _ = 10 ^ a := by rw [← pow_add, Nat.add_sub_cancel' hle]
        _ ≤ i.middle * i.unitNum * 10 ^ 0 := by rw [pow_zero, Nat.mul_one]; exact hlow
    · have hup : ((((a + 1 : Nat) : Int) - b - 1).toNat) = 0 := by omega
      have hdown : (-((((a + 1 : Nat) : Int) - b - 1))).toNat = b - a := by omega
      rw [hup, hdown]
      calc i.unitDen * 10 ^ 0 ≤ 10 ^ b := by rw [pow_zero, Nat.mul_one]; exact hhigh.le
        _ = 10 ^ a * 10 ^ (b - a) := by rw [← pow_add, Nat.add_sub_cancel' hle]
        _ ≤ i.middle * i.unitNum * 10 ^ (b - a) := Nat.mul_le_mul_right _ hlow

/-- Zero is not in the interval. -/
theorem contains_zero (h : i.IsPositive) (power : Int) : i.contains 0 power = false := by
  have hscale : 0 < i.low * (i.unitNum * Nat.pow 10 (-power).toNat) :=
    Nat.mul_pos h.low (Nat.mul_pos h.unitNum (Nat.pow_pos (by decide)))
  simp only [contains, Nat.zero_mul]
  split
  · simp only [Bool.and_eq_false_iff, decide_eq_false_iff_not]
    omega
  · simp only [Bool.and_eq_false_iff, decide_eq_false_iff_not]
    omega

theorem pos_of_nearest? (h : i.IsPositive) (hcount : i.nearest? power = some count) :
    0 < count := by
  have hpos : ∀ n, i.contains n power = true → 0 < n := by
    intro n hn
    rcases Nat.eq_zero_or_pos n with rfl | hpos
    · rw [contains_zero h] at hn
      cases hn
    · exact hpos
  unfold nearest? at hcount
  dsimp only at hcount
  split at hcount
  · next hbelow _ =>
    -- rounding does not go below the lower neighbour
    have hfloor := hpos _ hbelow
    cases hcount
    unfold roundDiv
    dsimp only
    split
    · exact hfloor
    · split <;> omega
  · next hbelow _ =>
    cases hcount
    exact hpos _ hbelow
  · next hbelow _ =>
    cases hcount
    exact Nat.succ_pos _
  · cases hcount

/-- The search comes back with a point above zero. -/
theorem pos_search (h : i.IsPositive) {leading : Int} (hleading : i.Reaches leading) (tries : Nat)
    {digits : Nat} (hdigits : 0 < digits) : 0 < (i.search leading tries digits).1 := by
  induction tries generalizing digits with
  | zero =>
    have hreaches : i.Reaches (leading - digits + 1) := hleading.mono (by omega)
    exact Nat.div_pos hreaches (Nat.mul_pos h.unitDen (Nat.pow_pos (by decide)))
  | succ tries ih =>
    unfold search
    dsimp only
    split
    · next count hcount => exact pos_of_nearest? h hcount
    · exact ih (Nat.succ_pos digits)

end Interval

theorem isPositive_interval {mantissa : Nat} (h : 0 < mantissa) (exponent : Int) :
    (interval mantissa exponent).IsPositive where
  low := by
    unfold interval
    dsimp only
    split <;> omega
  middle := Nat.mul_pos (by decide) h
  unitNum := Nat.pow_pos (by decide)
  unitDen := Nat.pow_pos (by decide)

/-- The shortest decimal of a positive number consists of digits. -/
theorem isDigit_shortest {mantissa : Nat} {exponent : Int} {c : Char}
    (h : c ∈ (shortest mantissa exponent).digits) : c.isDigit = true := by
  unfold shortest at h
  simp only [List.mem_reverse] at h
  exact isDigit_of_mem_digits (List.mem_reverse.mp ((List.dropWhile_suffix _).subset h))

/-- One of its digits is not zero. -/
theorem exists_ne_zero_shortest {mantissa : Nat} (h : 0 < mantissa) (exponent : Int) :
    ∃ c ∈ (shortest mantissa exponent).digits, c ≠ '0' := by
  have hpositive := isPositive_interval h exponent
  have hcount : 0 < ((interval mantissa exponent).search
      (interval mantissa exponent).leadingPower 17 1).1 :=
    Interval.pos_search hpositive (Interval.reaches_leadingPower hpositive) 17 Nat.zero_lt_one
  obtain ⟨c, hc, hne⟩ := exists_ne_zero_digits hcount
  refine ⟨c, ?_, hne⟩
  unfold shortest
  simp only [List.mem_reverse]
  -- only zeros at the end are dropped
  have hsplit := List.takeWhile_append_dropWhile (p := (· == '0'))
    (l := (Nat.toDigits 10 ((interval mantissa exponent).search
      (interval mantissa exponent).leadingPower 17 1).1).reverse)
  have hmem := List.mem_reverse.mpr hc
  rw [← hsplit, List.mem_append] at hmem
  rcases hmem with hzero | hkept
  · have hbeq : (c == '0') = true := List.mem_takeWhile_imp (p := fun d => d == '0') hzero
    exact absurd (beq_iff_eq.mp hbeq) hne
  · exact hkept

/-! ### Floating-point numbers -/

variable {d : Decimal} {c : Char}

theorem mem_positional (h : c ∈ d.digits) : c ∈ positional d := by
  unfold positional
  split
  · simp [h]
  · dsimp only
    have hpadded : c ∈ d.digits ++ List.replicate (d.exponent.toNat + 1 - d.digits.length) '0' :=
      List.mem_append_left _ h
    rw [← List.take_append_drop (d.exponent.toNat + 1)
      (d.digits ++ List.replicate (d.exponent.toNat + 1 - d.digits.length) '0'),
      List.mem_append] at hpadded
    rcases hpadded with hwhole | hrest
    · exact List.mem_append_left _ hwhole
    · refine List.mem_append_right _ (List.mem_cons_of_mem _ ?_)
      rw [if_neg (by simpa using List.ne_nil_of_mem hrest)]
      exact hrest

theorem point_mem_positional (d : Decimal) : '.' ∈ positional d := by
  unfold positional
  split <;> simp

theorem isBare_positional (h : ∀ c ∈ d.digits, c.isDigit = true) :
    ∀ c ∈ positional d, isBare c = true := by
  have hdigits : ∀ c ∈ d.digits, isBare c = true := fun c hc => isBare_of_isDigit (h c hc)
  have hpadded : ∀ n, ∀ c ∈ d.digits ++ List.replicate n '0', isBare c = true := by
    intro n c hc
    rcases List.mem_append.mp hc with hc | hc
    · exact hdigits c hc
    · rw [List.eq_of_mem_replicate hc]
      rfl
  intro c hc
  unfold positional at hc
  split at hc
  · simp only [List.cons_append, List.mem_cons, List.mem_append] at hc
    rcases hc with rfl | rfl | hc | hc
    · rfl
    · rfl
    · rw [List.eq_of_mem_replicate hc]
      rfl
    · exact hdigits c hc
  · dsimp only at hc
    simp only [List.mem_append, List.mem_cons] at hc
    rcases hc with hc | rfl | hc
    · exact hpadded _ c (List.mem_of_mem_take hc)
    · rfl
    · split at hc
      · rw [List.mem_singleton.mp hc]
        rfl
      · exact hpadded _ c (List.mem_of_mem_drop hc)

/-- A decimal with an exponent is marked by a letter and a sign. -/
theorem marks_mem_exponential (d : Decimal) :
    'e' ∈ exponential d ∧ ∃ c ∈ exponential d, c = '-' ∨ c = '+' := by
  unfold exponential
  refine ⟨by simp, if d.exponent < 0 then '-' else '+', by simp, ?_⟩
  split
  · exact Or.inl rfl
  · exact Or.inr rfl

theorem isBare_exponential (h : ∀ c ∈ d.digits, c.isDigit = true) :
    ∀ c ∈ exponential d, isBare c = true := by
  have hdigits : ∀ c ∈ d.digits, isBare c = true := fun c hc => isBare_of_isDigit (h c hc)
  intro c hc
  unfold exponential at hc
  dsimp only at hc
  simp only [List.mem_append, List.mem_cons] at hc
  rcases hc with ((hc | hc) | rfl | hc | hc) | hc
  · exact hdigits c (List.mem_of_mem_take hc)
  · split at hc
    · cases hc
    · rcases List.mem_cons.mp hc with rfl | hc
      · rfl
      · exact hdigits c (List.mem_of_mem_drop hc)
  · rfl
  · rw [hc]
    split <;> rfl
  · rw [List.eq_of_mem_replicate hc]
    rfl
  · exact isBare_of_isDigit (isDigit_of_mem_digits hc)

/-- Only the mantissa of zero is zero. -/
theorem isZero_iff {x : Binary64} :
    x.isZero = true ↔ ∃ negative exponent, x.form = .finite negative 0 exponent := by
  unfold isZero form
  by_cases htop : x.exponentField = 0x7FF
  · by_cases hfraction : x.fractionField = 0 <;> simp [htop, hfraction]
  · by_cases hleast : x.exponentField = 0
    · simp [hleast]
    · simp [htop, hleast]

end Binary64

namespace Json

open Binary64

/-- What the characters of a number with a fraction show: they are neither those of an integer nor
those of a name, and they tell whether the number is zero. -/
structure ShowsFloat (cs : List Char) (isZero : Bool) : Prop where
  bare : cs.all isBare = true
  not_integral : cs.all isIntegral = false
  not_name : cs ∉ [['n', 'u', 'l', 'l'], ['t', 'r', 'u', 'e'], ['f', 'a', 'l', 's', 'e']]
  zero : cs ∈ [['0', '.', '0'], ['-', '0', '.', '0']] ↔ isZero = true

/-- The digits of a positive number, however they are laid out. -/
theorem showsFloat_body {negative : Bool} {body : List Char}
    (hbare : ∀ c ∈ body, isBare c = true) (hintegral : ∃ c ∈ body, isIntegral c = false)
    (hmark : ∃ c ∈ body, c ∈ ['.', '+', '-']) (hzero : ∃ c ∈ body, c ∉ ['-', '0', '.']) :
    ShowsFloat ((if negative then ['-'] else []) ++ body) false := by
  -- characters all of which are of some sort are none among which another one stands
  have hne : ∀ (texts : List (List Char)) (sort : List Char),
      (texts.flatten.all fun c => sort.contains c) = true → (∃ c ∈ body, c ∉ sort) →
      (if negative then ['-'] else []) ++ body ∉ texts := by
    rintro texts sort htexts ⟨c, hc, hnot⟩ hin
    have hflatten := List.mem_flatten_of_mem hin (List.mem_append_right _ hc)
    exact hnot (List.contains_iff_mem.mp (List.all_eq_true.mp htexts c hflatten))
  constructor
  case bare =>
    rw [List.all_eq_true]
    intro c hc
    rcases List.mem_append.mp hc with hc | hc
    · split at hc
      · rw [List.mem_singleton.mp hc]
        rfl
      · cases hc
    · exact hbare c hc
  case not_integral =>
    obtain ⟨c, hc, hnot⟩ := hintegral
    exact List.all_eq_false.mpr ⟨c, List.mem_append_right _ hc, by simp [hnot]⟩
  case not_name =>
    refine hne _ ['n', 'u', 'l', 't', 'r', 'e', 'f', 'a', 's'] (by decide) ?_
    obtain ⟨c, hc, hin⟩ := hmark
    refine ⟨c, hc, ?_⟩
    simp only [List.mem_cons, List.not_mem_nil, or_false] at hin
    rcases hin with rfl | rfl | rfl <;> decide
  case zero =>
    have hnot := hne [['0', '.', '0'], ['-', '0', '.', '0']] ['-', '0', '.'] (by decide) hzero
    exact ⟨fun hin => absurd hin hnot, nofun⟩

/-- The text of a floating-point number tells whether it is zero, and is no other value's. -/
theorem showsFloat_toText (x : Binary64) : ShowsFloat (x.toText numberStyle).toList x.isZero := by
  have hzero := isZero_iff (x := x)
  unfold toText
  cases hform : x.form with
  | nan =>
    have hnot : x.isZero = false := by
      rw [Bool.eq_false_iff, Ne, hzero, hform]
      simp
    rw [hnot]
    change ShowsFloat ['N', 'a', 'N'] false
    exact ⟨by decide, by decide, by decide, by decide⟩
  | infinite negative =>
    have hnot : x.isZero = false := by
      rw [Bool.eq_false_iff, Ne, hzero, hform]
      simp
    have htext : ((if negative then "-" else "") ++ numberStyle.infinityText).toList =
        (if negative then ['-'] else []) ++ ['I', 'n', 'f', 'i', 'n', 'i', 't', 'y'] := by
      cases negative <;> rfl
    rw [hnot, htext]
    cases negative <;> exact ⟨by decide, by decide, by decide, by decide⟩
  | finite negative mantissa exponent =>
    dsimp only
    by_cases hmantissa : mantissa = 0
    · have hyes : x.isZero = true := by
        rw [hzero, hform, hmantissa]
        exact ⟨negative, exponent, rfl⟩
      rw [hyes, if_pos (by simpa using hmantissa), String.toList_ofList]
      cases negative <;> exact ⟨by decide, by decide, by decide, by decide⟩
    · have hnot : x.isZero = false := by
        rw [Bool.eq_false_iff, Ne, hzero, hform]
        simp [hmantissa]
      have hdigits : ∀ c ∈ (shortest mantissa exponent).digits, c.isDigit = true :=
        fun c hc => isDigit_shortest hc
      obtain ⟨c, hc, hne⟩ := exists_ne_zero_shortest (Nat.pos_of_ne_zero hmantissa) exponent
      rw [hnot, if_neg (by simpa using hmantissa), String.toList_ofList]
      by_cases hlayout : (numberStyle.leastPositional ≤ (shortest mantissa exponent).exponent &&
          (shortest mantissa exponent).exponent < numberStyle.firstExponential) = true
      · rw [if_pos hlayout]
        refine showsFloat_body (isBare_positional hdigits)
          ⟨'.', point_mem_positional _, by decide⟩ ⟨'.', point_mem_positional _, by decide⟩
          ⟨c, mem_positional hc, ?_⟩
        -- a digit is neither a sign nor a point
        have hdigit := hdigits c hc
        simp only [List.mem_cons, List.not_mem_nil, or_false]
        rintro (rfl | rfl | rfl)
        · cases hdigit
        · exact hne rfl
        · cases hdigit
      · rw [if_neg hlayout]
        obtain ⟨hletter, sign, hsign, hcases⟩ := marks_mem_exponential (shortest mantissa exponent)
        refine showsFloat_body (isBare_exponential hdigits) ⟨'e', hletter, by decide⟩
          ⟨sign, hsign, ?_⟩ ⟨'e', hletter, by decide⟩
        rcases hcases with rfl | rfl <;> decide

end Json

end DocLineage
