import DocLineage.Proofs.Loading

/-!
# What a value is shown as

A value inside a compound one is shown by something, whatever it is: texts are quoted, collections
have their brackets, and a collection inside of itself is shown by dots. So the only value that is
read as the empty text is the empty text, and that does not count as set. A parameter is read only
from a mapping with a name that is set; it follows that its name is not empty.

## Main results

* `Value.displayIn_ne_empty` — a value is shown by something
* `Value.toText_ne_nil` — a value that is set is not read as the empty text
* `Doclet.name_ne_nil_of_ofMapping` — the parameters that are read have names
-/

namespace DocLineage

/-! ### Scalars -/

namespace Binary64

theorem positional_ne_nil (d : Decimal) : positional d ≠ [] := by
  unfold positional
  split <;> simp

theorem exponential_ne_nil (d : Decimal) : exponential d ≠ [] := by
  simp [exponential]

/-- A number is shown by something if what is no number and what is infinite are. -/
theorem toText_ne_empty {n : Style} (hnan : n.nanText ≠ "") (hinfinity : n.infinityText ≠ "")
    (x : Binary64) : x.toText n ≠ "" := by
  unfold toText
  split
  · exact hnan
  · simp [hinfinity]
  · dsimp only
    split
    · simp
    · -- a sign alone would do, and without one there is the number
      split
      · simp
      · split
        · simp [positional_ne_nil]
        · simp [exponential_ne_nil]

end Binary64

theorem integerText_ne_empty {n : Int} {shown : String} (h : integerText n = .ok shown) :
    shown ≠ "" := by
  unfold integerText at h
  dsimp only at h
  split at h
  · cases h
  · cases h
    split <;> simp

theorem Scalar.display_ne_empty {s : Scalar} {shown : String} (h : s.display = .ok shown) :
    shown ≠ "" := by
  unfold display at h
  split at h
  · cases h
    simp
  · cases h
    simp
  · cases h
    simp
  · exact integerText_ne_empty h
  · cases h
    exact Binary64.toText_ne_empty (by decide) (by decide) _
  · cases h
    simp [Text.quoted]
  · cases h
    unfold Moment.display
    split <;> simp
  · cases h
    simp [displayBytes]

/-! ### Values -/

namespace Value

theorem dots_ne_empty (kind : Kind) : kind.dots ≠ "" := by
  cases kind <;> simp [Kind.dots]

/-- A value is shown by something inside a compound one. -/
theorem displayIn_ne_empty {names : List Nat} {shown : String} :
    ∀ v : Value, v.displayIn names = .ok shown → shown ≠ ""
  | .scalar s, h => by
    rw [displayIn] at h
    exact Scalar.display_ne_empty h
  | .list items, h => by
    rw [displayIn] at h
    obtain ⟨_, -, h⟩ := Doclet.bind_eq_ok_iff.mp h
    cases h
    simp
  | .pair first second, h => by
    rw [displayIn] at h
    obtain ⟨_, -, h⟩ := Doclet.bind_eq_ok_iff.mp h
    obtain ⟨_, -, h⟩ := Doclet.bind_eq_ok_iff.mp h
    cases h
    simp
  | .set items, h => by
    rw [displayIn, displaySet] at h
    split at h
    · cases h
      simp
    · obtain ⟨_, -, h⟩ := Doclet.bind_eq_ok_iff.mp h
      cases h
      simp
  | .map entries, h => by
    rw [displayIn] at h
    obtain ⟨_, -, h⟩ := Doclet.bind_eq_ok_iff.mp h
    cases h
    simp
  | .knot name body, h => by
    rw [displayIn] at h
    split at h
    · cases h
      exact dots_ne_empty _
    · exact displayIn_ne_empty body h
  | .again _ kind, h => by
    rw [displayIn] at h
    cases h
    exact dots_ne_empty kind

theorem ofString_ne_nil {s : String} (h : s ≠ "") : Text.ofString s ≠ [] := by
  unfold Text.ofString Text.ofChars
  simpa using h

/-- A value that is set is not read as the empty text. -/
theorem toText_ne_nil {v : Value} {t : Text} (hset : v.isTruthy = true) (h : v.toText = .ok t) :
    t ≠ [] := by
  unfold toText at h
  split at h
  · cases h
    simpa [isTruthy, Scalar.isTruthy] using hset
  · rw [← Except.ok.inj h]
    apply ofString_ne_nil
    simp [Moment.text]
  · cases hshown : display v with
    | error fault =>
      rw [hshown] at h
      cases h
    | ok shown =>
      rw [hshown] at h
      rw [← Except.ok.inj h]
      exact ofString_ne_nil (displayIn_ne_empty v hshown)

end Value

/-! ### Parameters -/

namespace Doclet

variable {raw : Mapping} {longname : Text} {seen : List Text} {ms : List Mapping}
  {params : List Param} {d : Doclet}

/-- A parameter is read only from a mapping with a name that is set. -/
theorem name_ne_nil_of_paramList (h : (paramList longname seen ms).1 = .ok params) :
    ∀ p ∈ params, p.name ≠ [] := by
  induction ms generalizing seen params with
  | nil =>
    cases h
    exact nofun
  | cons m ms ih =>
    rw [paramList] at h
    split at h
    · exact ih h
    · split at h
      · exact ih h
      · next value _ hset =>
        split at h
        · cases h
        · next name hname =>
          split at h
          · exact ih h
          · split at h
            · cases h
            · next p hp =>
              cases hrest : (paramList longname (name :: seen) ms).1 with
              | error fault =>
                simp only [hrest] at h
                cases h
              | ok rest =>
                simp only [hrest] at h
                cases h
                intro q hq
                rcases List.mem_cons.mp hq with rfl | hq
                · rw [name_of_param hp]
                  exact Value.toText_ne_nil (by simpa using hset) hname
                · exact ih hrest q hq

/-- The parameters of a doclet that was read from a mapping have names. -/
theorem name_ne_nil_of_ofMapping (h : ofMapping raw = .ok d) : ∀ p ∈ d.params, p.name ≠ [] := by
  unfold ofMapping read at h
  dsimp only at h
  split at h
  · cases h
  · obtain ⟨params, hparams, hback⟩ := bind_eq_ok_iff.mp h
    rw [params_of_back hback]
    exact name_ne_nil_of_paramList hparams

end Doclet

end DocLineage
