/-!
# Tables

Finite maps that keep the order in which their keys were first entered. A table never holds a key
twice.

## Main definitions

* `Table` — entries with distinct keys
* `Table.get?`, `Table.insert`, `Table.erase` — looking up, setting and removing an entry

## Main results

* `Table.get?_insert`, `Table.get?_erase` — setting or removing an entry touches no other one
* `Table.total_filter_ne_add` — removing an entry takes its own share off a total
-/

namespace DocLineage

/-- A finite map as a list of entries with distinct keys. -/
structure Table (κ α : Type) where
  entries : List (κ × α)
  nodup : (entries.map Prod.fst).Nodup

namespace Table

variable {κ α : Type}

/-- The table without entries. -/
def empty : Table κ α := ⟨[], List.nodup_nil⟩

instance : Inhabited (Table κ α) := ⟨empty⟩

/-- The keys in the order in which they were first entered. -/
def keys (t : Table κ α) : List κ := t.entries.map Prod.fst

/-- The number of entries. -/
def size (t : Table κ α) : Nat := t.entries.length

/-- A number for each entry, added up. -/
def total (f : κ → α → Nat) : List (κ × α) → Nat
  | [] => 0
  | (k, v) :: es => f k v + total f es

/-- The table has no entry. -/
def isEmpty (t : Table κ α) : Bool := t.entries.isEmpty

variable [DecidableEq κ]

/-- The value of the first entry with the key. -/
def lookup (key : κ) : List (κ × α) → Option α
  | [] => none
  | (k, v) :: es => if k = key then some v else lookup key es

/-- The entries with the value under the key set, in place or at the end. -/
def set (key : κ) (value : α) : List (κ × α) → List (κ × α)
  | [] => [(key, value)]
  | (k, v) :: es => if k = key then (k, value) :: es else (k, v) :: set key value es

/-- The value under a key. -/
def get? (t : Table κ α) (key : κ) : Option α := lookup key t.entries

/-- The key has an entry. -/
def contains (t : Table κ α) (key : κ) : Bool := (t.get? key).isSome

omit [DecidableEq κ] in
@[simp] theorem keys_mk (es : List (κ × α)) (h) : (Table.mk es h).keys = es.map Prod.fst := rfl

theorem map_fst_set (key : κ) (value : α) (es : List (κ × α)) :
    (set key value es).map Prod.fst =
      if key ∈ es.map Prod.fst then es.map Prod.fst else es.map Prod.fst ++ [key] := by
  induction es with
  | nil => simp [set]
  | cons e es ih =>
    obtain ⟨k, v⟩ := e
    unfold set
    split
    · next h => simp [h]
    · next h =>
      have h' : ¬ key = k := fun e => h e.symm
      simp only [List.map_cons, ih, List.mem_cons, h', false_or]
      split <;> simp

theorem nodup_set (key : κ) (value : α) {es : List (κ × α)} (h : (es.map Prod.fst).Nodup) :
    ((set key value es).map Prod.fst).Nodup := by
  rw [map_fst_set]
  split
  · exact h
  · next hk =>
    rw [List.nodup_append]
    refine ⟨h, by simp, ?_⟩
    intro a ha b hb hab
    rw [List.mem_singleton] at hb
    exact hk (hb ▸ hab ▸ ha)

/-- The table with the value under a key set; a new key comes last. -/
def insert (t : Table κ α) (key : κ) (value : α) : Table κ α :=
  ⟨set key value t.entries, nodup_set key value t.nodup⟩

/-- The table without the entry of a key. -/
def erase (t : Table κ α) (key : κ) : Table κ α :=
  ⟨t.entries.filter fun e => e.1 ≠ key,
    t.nodup.sublist (List.Sublist.map _ List.filter_sublist)⟩

/-! ### Looking up -/

theorem lookup_eq_none_iff {key : κ} {es : List (κ × α)} :
    lookup key es = none ↔ key ∉ es.map Prod.fst := by
  induction es with
  | nil => simp [lookup]
  | cons e es ih =>
    obtain ⟨k, v⟩ := e
    by_cases h : k = key
    · simp [lookup, h]
    · have h' : ¬ key = k := fun e => h e.symm
      simp [lookup, h, h', ih]

theorem lookup_set (key key' : κ) (value : α) (es : List (κ × α)) :
    lookup key' (set key value es) = if key = key' then some value else lookup key' es := by
  induction es with
  | nil => rfl
  | cons e es ih =>
    obtain ⟨k, v⟩ := e
    by_cases h : k = key
    · subst h; by_cases h' : k = key' <;> simp [set, lookup, h']
    · by_cases h' : key = key'
      · subst h'; simp [set, lookup, h, ih]
      · simp [set, lookup, h, h', ih]

theorem lookup_filter_ne (key key' : κ) (es : List (κ × α)) :
    lookup key' (es.filter fun e => e.1 ≠ key) = if key = key' then none else lookup key' es := by
  induction es with
  | nil => simp [lookup]
  | cons e es ih =>
    obtain ⟨k, v⟩ := e
    by_cases h : k = key
    · subst h; by_cases h' : k = key' <;> simp_all [lookup]
    · by_cases h' : key = key'
      · subst h'; simp_all [lookup]
      · by_cases h'' : k = key' <;> simp_all [lookup]

theorem set_of_lookup_eq_some {key : κ} {value : α} {es : List (κ × α)}
    (h : lookup key es = some value) : set key value es = es := by
  induction es with
  | nil => cases h
  | cons e es ih =>
    obtain ⟨k, v⟩ := e
    unfold lookup at h
    unfold set
    split at h
    · next hk =>
      cases h
      rw [if_pos hk]
    · next hk => rw [if_neg hk, ih h]

@[simp] theorem get?_empty (key : κ) : (empty : Table κ α).get? key = none := rfl

/-- Setting an entry touches no other one. -/
theorem get?_insert (t : Table κ α) (key key' : κ) (value : α) :
    (t.insert key value).get? key' = if key = key' then some value else t.get? key' :=
  lookup_set key key' value t.entries

/-- Removing an entry touches no other one. -/
theorem get?_erase (t : Table κ α) (key key' : κ) :
    (t.erase key).get? key' = if key = key' then none else t.get? key' :=
  lookup_filter_ne key key' t.entries

/-- Setting an entry to what it is changes nothing, not even the order. -/
theorem insert_of_get?_eq_some {t : Table κ α} {key : κ} {value : α}
    (h : t.get? key = some value) : t.insert key value = t := by
  obtain ⟨es, _⟩ := t
  simp only [insert, set_of_lookup_eq_some h]

/-- Removing what is not there changes nothing. -/
theorem erase_of_contains_eq_false {t : Table κ α} {key : κ} (h : t.contains key = false) :
    t.erase key = t := by
  obtain ⟨es, _⟩ := t
  rw [contains, Option.isSome_eq_false_iff, Option.isNone_iff_eq_none, get?,
    lookup_eq_none_iff] at h
  simp only [erase, mk.injEq, List.filter_eq_self]
  intro e he
  exact decide_eq_true fun heq => h (heq ▸ List.mem_map_of_mem he)

theorem contains_insert (t : Table κ α) (key key' : κ) (value : α) :
    (t.insert key value).contains key' = (decide (key = key') || t.contains key') := by
  by_cases h : key = key' <;> simp [contains, get?_insert, h]

/-! ### Keys -/

theorem get?_eq_none_iff {t : Table κ α} {key : κ} : t.get? key = none ↔ key ∉ t.keys :=
  lookup_eq_none_iff

theorem contains_iff {t : Table κ α} {key : κ} : t.contains key = true ↔ key ∈ t.keys := by
  rw [contains, Option.isSome_iff_ne_none, ne_eq, get?_eq_none_iff, Decidable.not_not]

/-! ### Totals -/

omit [DecidableEq κ] in
theorem total_congr {f g : κ → α → Nat} {es : List (κ × α)}
    (h : ∀ e ∈ es, f e.1 e.2 = g e.1 e.2) : total f es = total g es := by
  induction es with
  | nil => rfl
  | cons e es ih =>
    have hrest := ih fun e' he' => h e' (List.mem_cons_of_mem _ he')
    unfold total
    rw [h e List.mem_cons_self, hrest]

/-- Setting an entry under a key that counts for nothing leaves the total as it is. -/
theorem total_set_of_zero {f : κ → α → Nat} {key : κ} (hf : ∀ v, f key v = 0) (value : α)
    (es : List (κ × α)) : total f (set key value es) = total f es := by
  induction es with
  | nil => simp [set, total, hf]
  | cons e es ih =>
    obtain ⟨k, v⟩ := e
    unfold set
    split
    · next h => subst h; simp [total, hf]
    · simp [total, ih]

/-- Removing an entry lowers the total by what that entry counts for. -/
theorem total_filter_ne_add (f : κ → α → Nat) {es : List (κ × α)} (h : (es.map Prod.fst).Nodup)
    (key : κ) :
    total f (es.filter fun e => e.1 ≠ key) + ((lookup key es).map (f key)).getD 0 =
      total f es := by
  induction es with
  | nil => rfl
  | cons e es ih =>
    obtain ⟨k, v⟩ := e
    rw [List.map_cons, List.nodup_cons] at h
    have ih := ih h.2
    simp only [ne_eq] at ih ⊢
    by_cases hk : k = key
    · -- the key comes only once, so that nothing else is removed
      subst hk
      rw [lookup_eq_none_iff.mpr h.1] at ih
      simp only [Option.map_none, Option.getD_none, Nat.add_zero] at ih
      simp only [lookup, if_true, Option.map_some, Option.getD_some, total,
        List.filter_cons, not_true_eq_false, decide_false, Bool.false_eq_true, if_false]
      omega
    · simp only [lookup, hk, if_false, total, List.filter_cons, not_false_eq_true,
        decide_true, if_true]
      omega

end Table

end DocLineage
