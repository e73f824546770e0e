import DocLineage.Value.Basic
import Mathlib.Data.List.Forall2

/-!
# Looking up the entries of a mapping

What is found under a key, and what becomes of the entries when one of them is set. Keys that equal
each other count as one; for a text this means that only the text itself is meant.

## Main definitions

* `Mapping.HasDistinctKeys` — no two entries of a mapping have the same key

## Main results

* `Mapping.find?_perm` — the order of entries does not matter for what is found
* `Mapping.get?_set`, `Mapping.set_eq_self` — what is found after an entry is set
* `Mapping.keys_set`, `Mapping.mem_of_mem_set` — the keys and entries after one is set
-/

namespace DocLineage

/-- A scalar that is looked up by itself is found by nothing else. -/
theorem Scalar.eq_of_keyForm_eq_other {k s : Scalar} (h : k.keyForm = .other s) : k = s := by
  unfold keyForm at h
  split at h
  · cases h
  · cases h
  · split at h
    · cases h
    · exact KeyForm.other.inj h
  · split at h
    · cases h
    · exact KeyForm.other.inj h
  · exact KeyForm.other.inj h

/-- Only a text names the same entry as a text. -/
theorem Scalar.eq_of_sameKey_text {k : Scalar} {t : Text} (h : SameKey k (.text t)) :
    k = .text t :=
  eq_of_keyForm_eq_other h

/-- Whatever is in the second of two lists that agree item by item agrees with an item of the
first. -/
theorem exists_left_of_forall₂ {α β : Type} {R : α → β → Prop} {as : List α} {bs : List β} {b : β}
    (h : List.Forall₂ R as bs) (hb : b ∈ bs) : ∃ a ∈ as, R a b := by
  induction h with
  | nil => cases hb
  | cons hab _ ih =>
    rcases List.mem_cons.mp hb with rfl | hb
    · exact ⟨_, List.mem_cons_self, hab⟩
    · obtain ⟨a, ha, hR⟩ := ih hb
      exact ⟨a, List.mem_cons_of_mem _ ha, hR⟩

namespace Mapping

variable {m m' : Mapping} {k key : Scalar} {name name' : Text} {v : Value}

/-- No two entries have the same key. -/
def HasDistinctKeys (m : Mapping) : Prop := m.Pairwise fun e e' => ¬Scalar.SameKey e.1 e'.1

instance (m : Mapping) : Decidable m.HasDistinctKeys :=
  inferInstanceAs (Decidable (m.Pairwise fun e e' => ¬Scalar.SameKey e.1 e'.1))

theorem exists_of_find? (h : m.find? key = some v) : ∃ k, Scalar.SameKey k key ∧ (k, v) ∈ m := by
  induction m with
  | nil => cases h
  | cons e m ih =>
    obtain ⟨k, w⟩ := e
    rw [find?_cons] at h
    split at h
    · next hk =>
      cases h
      exact ⟨k, hk, List.mem_cons_self⟩
    · obtain ⟨k', hk', hmem⟩ := ih h
      exact ⟨k', hk', List.mem_cons_of_mem _ hmem⟩

theorem find?_of_mem (hm : m.HasDistinctKeys) (h : (k, v) ∈ m) (hk : Scalar.SameKey k key) :
    m.find? key = some v := by
  induction m with
  | nil => cases h
  | cons e m ih =>
    obtain ⟨k', w⟩ := e
    obtain ⟨hfirst, hrest⟩ := List.pairwise_cons.mp hm
    rw [find?_cons]
    rcases List.mem_cons.mp h with heq | h
    · cases heq
      exact if_pos hk
    · rw [if_neg fun hk' => hfirst _ h (hk'.trans hk.symm)]
      exact ih hrest h

/-- The order of entries does not matter for what is found. -/
theorem find?_perm (hm : m.HasDistinctKeys) (h : m.Perm m') (key : Scalar) :
    m.find? key = m'.find? key := by
  have hm' : m'.HasDistinctKeys := h.pairwise hm fun hne hsame => hne hsame.symm
  ext v
  constructor
  · intro hv
    obtain ⟨k, hk, hmem⟩ := exists_of_find? hv
    exact find?_of_mem hm' (h.subset hmem) hk
  · intro hv
    obtain ⟨k, hk, hmem⟩ := exists_of_find? hv
    exact find?_of_mem hm (h.symm.subset hmem) hk

theorem find?_append (m m' : Mapping) (key : Scalar) :
    find? (m ++ m') key = (m.find? key).or (m'.find? key) := by
  induction m with
  | nil => rfl
  | cons e m ih =>
    obtain ⟨k, w⟩ := e
    rw [List.cons_append, find?_cons, find?_cons]
    split
    · rfl
    · exact ih

/-- Entries under other keys do not matter. -/
theorem find?_filter {p : Scalar × Value → Bool}
    (h : ∀ e ∈ m, Scalar.SameKey e.1 key → p e = true) : find? (m.filter p) key = m.find? key := by
  induction m with
  | nil => rfl
  | cons e m ih =>
    obtain ⟨k, w⟩ := e
    have hrest := ih fun e' he' => h e' (List.mem_cons_of_mem _ he')
    rw [List.filter_cons, find?_cons]
    split
    · rw [find?_cons, hrest]
    · next hp =>
      rw [if_neg fun hk => hp (h _ List.mem_cons_self hk), hrest]

/-! ### Setting an entry -/

theorem get?_set : (m.set name v).get? name' = if name = name' then some v else m.get? name' := by
  rw [get?, set, find?_insert]
  simp only [Scalar.sameKey_text_iff, get?]

/-- Setting a field to the value that it has changes nothing, not even its spelling. -/
theorem set_eq_self (h : m.get? name = some v) : m.set name v = m := by
  unfold get? at h
  unfold set
  induction m with
  | nil => cases h
  | cons e m ih =>
    obtain ⟨k, w⟩ := e
    rw [find?_cons] at h
    rw [insert]
    split
    · next hk =>
      rw [if_pos hk] at h
      cases h
      rfl
    · next hk =>
      rw [if_neg hk] at h
      rw [ih h]

/-- A key that is set stays in its place, or is added at the end. -/
theorem keys_set (m : Mapping) (name : Text) (v : Value) :
    (m.set name v).keys = if .text name ∈ m.keys then m.keys else m.keys ++ [.text name] := by
  unfold set
  induction m with
  | nil => rfl
  | cons e m ih =>
    obtain ⟨k, w⟩ := e
    rw [insert]
    split
    · next hk =>
      cases Scalar.eq_of_sameKey_text hk
      exact (if_pos List.mem_cons_self).symm
    · next hk =>
      have hne : Scalar.text name ≠ k := by
        rintro rfl
        exact hk (Scalar.sameKey_refl _)
      change k :: keys (insert m (.text name) v) = if .text name ∈ k :: keys m then k :: keys m
        else k :: (keys m ++ [.text name])
      rw [ih]
      simp only [List.mem_cons, hne, false_or]
      split <;> rfl

/-- Keys that are all different stay so. -/
theorem nodup_keys_set (h : m.keys.Nodup) : (m.set name v).keys.Nodup := by
  rw [keys_set]
  split
  · exact h
  · next hnot =>
    rw [List.nodup_append]
    refine ⟨h, List.nodup_cons.mpr ⟨List.not_mem_nil, List.nodup_nil⟩, ?_⟩
    rintro k hk _ hname rfl
    exact hnot (List.mem_singleton.mp hname ▸ hk)

/-- An entry that is there after one is set was there before, unless it is this one. -/
theorem mem_of_mem_set {e : Scalar × Value} (h : e ∈ m.set name v) :
    e ∈ m ∨ e = (.text name, v) := by
  unfold set at h
  induction m with
  | nil => exact Or.inr (List.mem_singleton.mp h)
  | cons e' m ih =>
    obtain ⟨k, w⟩ := e'
    rw [insert] at h
    split at h
    · next hk =>
      rcases List.mem_cons.mp h with rfl | h
      · right
        rw [Scalar.eq_of_sameKey_text hk]
      · exact Or.inl (List.mem_cons_of_mem _ h)
    · rcases List.mem_cons.mp h with rfl | h
      · exact Or.inl List.mem_cons_self
      · exact (ih h).imp_left (List.mem_cons_of_mem _)

end Mapping

end DocLineage
