import DocLineage.Config.Basic
import DocLineage.Proofs.Lookup
import Mathlib.Data.List.Infix
import Mathlib.Order.WellFounded

/-!
# What lies where when one mapping is laid over another

A mapping that is laid over another one decides, path by path, what is found at the end: whatever it
holds there that is no mapping stays, and what it does not reach is as it was below. Where a mapping
meets a mapping, both are gone through; where it meets anything else, the upper one stands alone. So
nothing is found but what one of the two holds.

Mappings may be part of themselves. Then two of them may hold mappings under common keys on and on,
and there is no end to laying the one over the other; in all other cases there is a result. Laying
the same mapping over the result once more changes nothing, not even the order of keys, but for this
one exception: a mapping that leads from mapping to mapping without an end can be laid over one that
does not, and cannot be laid over the result.

## Main definitions

* `Mapping.Along` — what is on a path before its end
* `Mapping.Nested`, `Mapping.Endless` — mappings under a common key, and that on and on
* `Mapping.IsSound`, `Mapping.IsTree` — no mapping has a key twice, and none is part of itself
* `Mapping.Alike` — mappings that hold the same at the end of every path

## Main results

* `Mapping.find?_overlay` — what is found under a key
* `Mapping.at?_overlay_of_upper`, `Mapping.at?_overlay_of_lower`, `Mapping.of_at?_overlay` — what is
  found at the end of a path
* `Mapping.overlay_eq_none_iff` — when there is no result
* `Mapping.alike_of_overlay`, `Mapping.IsTree.overlay_overlay` — laying a mapping over the result
  once more
* `Mapping.overlay_pathwise` — all of this in one statement
* `Mapping.not_overlay_overlay` — the exception
* `Config.exists_layer_defaults` — any mapping can be laid over the defaults
-/

namespace DocLineage

/-- What is done to the items of a list one after the other, if all of it has a result. -/
theorem mapM_eq_some_iff {α β : Type} {f : α → Option β} {l : List α} {l' : List β} :
    l.mapM f = some l' ↔ List.Forall₂ (fun a b => f a = some b) l l' := by
  induction l generalizing l' with
  | nil =>
    rw [List.mapM_nil, List.forall₂_nil_left_iff, eq_comm]
    exact Option.some_inj
  | cons a as ih =>
    simp only [List.mapM_cons, Option.bind_eq_bind, Option.pure_def, Option.bind_eq_some_iff,
      Option.some.injEq, List.forall₂_cons_left_iff, ih]
    constructor
    · rintro ⟨b, hb, bs, hbs, rfl⟩
      exact ⟨b, bs, hb, hbs, rfl⟩
    · rintro ⟨b, bs, hb, hbs, rfl⟩
      exact ⟨b, hb, bs, hbs, rfl⟩

namespace Value

variable {upper lower v : Value} {es entries : Mapping}

/-- Two mappings are laid over each other. -/
theorem under_of_entries? (hlower : lower.entries? = some es)
    (hupper : upper.entries? = some entries) :
    upper.under lower = (Mapping.overlay es entries).map .map := by
  rw [under, hlower, hupper]
  dsimp only
  cases Mapping.overlay es entries <;> rfl

/-- Where one of two values is no mapping the upper one stands alone. -/
theorem under_of_none (h : lower.entries? = none ∨ upper.entries? = none) :
    upper.under lower = some upper := by
  rw [under]
  rcases h with h | h
  · rw [h]
  · rw [h]
    cases lower.entries? <;> rfl

/-- Two mappings are laid over each other, or the upper value stands alone. -/
theorem under_eq_some_iff : upper.under lower = some v ↔
    (∃ es entries m, lower.entries? = some es ∧ upper.entries? = some entries ∧
      Mapping.overlay es entries = some m ∧ v = .map m) ∨
    ((lower.entries? = none ∨ upper.entries? = none) ∧ v = upper) := by
  by_cases h : lower.entries? = none ∨ upper.entries? = none
  · rw [under_of_none h, Option.some.injEq, eq_comm]
    constructor
    · exact fun heq => Or.inr ⟨h, heq⟩
    · rintro (⟨es, entries, -, hes, hentries, -⟩ | ⟨-, heq⟩)
      · rw [hes, hentries] at h
        cases h <;> contradiction
      · exact heq
  · obtain ⟨es, hes⟩ := Option.ne_none_iff_exists'.mp fun hnone => h (Or.inl hnone)
    obtain ⟨entries, hentries⟩ := Option.ne_none_iff_exists'.mp fun hnone => h (Or.inr hnone)
    rw [under_of_entries? hes hentries, Option.map_eq_some_iff]
    constructor
    · rintro ⟨m, hm, rfl⟩
      exact Or.inl ⟨es, entries, m, hes, hentries, hm, rfl⟩
    · rintro (⟨es', entries', m, hes', hentries', hm, rfl⟩ | ⟨hnone, -⟩)
      · cases hes.symm.trans hes'
        cases hentries.symm.trans hentries'
        exact ⟨m, hm, rfl⟩
      · exact absurd hnone h

end Value

namespace Mapping

variable {base update m r r' es entries kept : Mapping} {key key' first : Scalar}
  {rest path : List Scalar} {u v w : Value}

/-! ### Under one key -/

/-- Keys that are the same lead to the same value. -/
theorem find?_congr (h : Scalar.SameKey key key') : m.find? key = m.find? key' := by
  induction m with
  | nil => rfl
  | cons e m ih =>
    obtain ⟨k, x⟩ := e
    have hiff : Scalar.SameKey k key ↔ Scalar.SameKey k key' :=
      ⟨fun hk => hk.trans h, fun hk => hk.trans h.symm⟩
    simp only [find?_cons, hiff, ih]

theorem isSome_find?_of_mem {k : Scalar} (h : (k, v) ∈ m) : (m.find? k).isSome = true := by
  induction m with
  | nil => cases h
  | cons e m ih =>
    rw [find?_cons]
    split
    · rfl
    · next hk =>
      rcases List.mem_cons.mp h with rfl | h
      · exact absurd (Scalar.sameKey_refl _) hk
      · exact ih h

/-- An entry of the lower mapping, and what becomes of it. -/
def BecomesUnder (update : Mapping) (e e' : Scalar × Value) : Prop :=
  e'.1 = e.1 ∧ match update.find? e.1 with
    | some u => u.under e.2 = some e'.2
    | none => e'.2 = e.2

/-- The entries of the lower mapping come first, and those that it does not have follow. -/
theorem overlay_eq_some_iff : overlay base update = some r ↔
    ∃ kept, List.Forall₂ (BecomesUnder update) base kept ∧ r = kept ++ update.without base := by
  have hbecomes : ∀ e e' : Scalar × Value, (match update.find? e.1 with
      | some u => do return (e.1, ← u.under e.2)
      | none => some e) = some e' ↔ BecomesUnder update e e' := by
    rintro ⟨k, v⟩ ⟨k', v'⟩
    unfold BecomesUnder
    dsimp only
    cases update.find? k with
    | none => simp [eq_comm]
    | some u =>
      dsimp only
      cases u.under v with
      | none => simp
      | some w => simp [eq_comm]
  rw [overlay]
  simp only [Option.bind_eq_bind, Option.pure_def, Option.bind_eq_some_iff, mapM_eq_some_iff,
    Option.some.injEq]
  constructor
  · rintro ⟨kept, hkept, rfl⟩
    exact ⟨kept, hkept.imp fun e e' h => (hbecomes e e').mp h, rfl⟩
  · rintro ⟨kept, hkept, rfl⟩
    exact ⟨kept, hkept.imp fun e e' h => (hbecomes e e').mpr h, rfl⟩

theorem find?_kept (h : List.Forall₂ (BecomesUnder update) base kept) (key : Scalar) :
    match base.find? key with
    | some v => ∃ w, kept.find? key = some w ∧ BecomesUnder update (key, v) (key, w)
    | none => kept.find? key = none := by
  induction h with
  | nil => rfl
  | @cons e e' _ _ he _ ih =>
    obtain ⟨k, v⟩ := e
    obtain ⟨k', v'⟩ := e'
    obtain ⟨rfl, hbecomes⟩ := he
    rw [find?_cons, find?_cons]
    dsimp only at hbecomes ⊢
    by_cases hk : Scalar.SameKey k' key
    · rw [if_pos hk, if_pos hk]
      rw [find?_congr hk] at hbecomes
      exact ⟨v', rfl, rfl, hbecomes⟩
    · rw [if_neg hk, if_neg hk]
      exact ih

theorem find?_without (m other : Mapping) (key : Scalar) :
    (m.without other).find? key = if other.contains key then none else m.find? key := by
  have hcongr : ∀ k, Scalar.SameKey k key → other.contains k = other.contains key := fun k hk => by
    rw [contains, find?_congr hk, contains]
  by_cases hother : other.contains key = true
  · rw [if_pos hother, Option.eq_none_iff_forall_ne_some]
    intro v hv
    obtain ⟨k, hk, hmem⟩ := exists_of_find? hv
    have hkept := (List.mem_filter.mp hmem).2
    rw [hcongr k hk, hother] at hkept
    cases hkept
  · -- whatever is taken out has another key
    rw [if_neg hother]
    apply find?_filter
    intro e _ he
    rw [hcongr e.1 he]
    simpa using hother

/-- What is found under a key when one mapping has been laid over another. -/
inductive FoundOver (base update : Mapping) (key : Scalar) (found : Option Value) : Prop
  | lower : update.find? key = none → found = base.find? key → FoundOver base update key found
  | upper {u : Value} : update.find? key = some u →
      (∀ w, base.find? key = some w → w.entries? = none ∨ u.entries? = none) →
      found = some u → FoundOver base update key found
  | both {w u : Value} {es entries m : Mapping} :
      base.find? key = some w → update.find? key = some u →
      w.entries? = some es → u.entries? = some entries → overlay es entries = some m →
      found = some (.map m) → FoundOver base update key found

/-- Under a key there is what the lower mapping holds, if the upper one holds nothing; where both
hold a mapping the two are laid over each other, and otherwise the upper value stands alone. -/
theorem find?_overlay (h : overlay base update = some r) (key : Scalar) :
    FoundOver base update key (r.find? key) := by
  obtain ⟨kept, hkept, rfl⟩ := overlay_eq_some_iff.mp h
  have hfound := find?_kept hkept key
  rw [find?_append, find?_without, contains]
  cases hw : base.find? key with
  | none =>
    rw [hw] at hfound
    rw [hfound]
    cases hu : update.find? key with
    | none => exact .lower hu hw.symm
    | some u => exact .upper hu (fun w hw' => nomatch hw.symm.trans hw') rfl
  | some w =>
    rw [hw] at hfound
    obtain ⟨x, hx, -, hbecomes⟩ := hfound
    dsimp only at hbecomes
    rw [hx]
    cases hu : update.find? key with
    | none =>
      rw [hu] at hbecomes
      rw [hbecomes]
      exact .lower hu hw.symm
    | some u =>
      rw [hu] at hbecomes
      rcases Value.under_eq_some_iff.mp hbecomes with
        ⟨es, entries, m, hes, hentries, hm, rfl⟩ | ⟨hnone, rfl⟩
      · exact .both hw hu hes hentries hm rfl
      · refine .upper hu (fun w' hw' => ?_) rfl
        cases hw.symm.trans hw'
        exact hnone

/-! ### At the end of a path -/

theorem at?_cons : m.at? first (key :: path) =
    ((m.find? first).bind Value.entries?).bind fun es => es.at? key path := by
  rw [at?]
  cases (m.find? first).bind Value.entries? <;> rfl

/-- A path that goes on leads through a mapping. -/
theorem at?_cons_eq_some : m.at? first (key :: path) = some v ↔
    ∃ w es, m.find? first = some w ∧ w.entries? = some es ∧ es.at? key path = some v := by
  rw [at?_cons]
  simp only [Option.bind_eq_some_iff]
  constructor
  · rintro ⟨es, ⟨w, hw, hes⟩, hv⟩
    exact ⟨w, es, hw, hes, hv⟩
  · rintro ⟨w, es, hw, hes, hv⟩
    exact ⟨es, ⟨w, hw, hes⟩, hv⟩

theorem at?_cons_of_entries? (hw : m.find? first = some w) (hes : w.entries? = some es) :
    m.at? first (key :: path) = es.at? key path := by
  rw [at?_cons, hw, Option.bind_some, hes, Option.bind_some]

/-- Whatever is on a path before its end has a property. -/
def Along (m : Mapping) (first : Scalar) (rest : List Scalar) (p : Value → Prop) : Prop :=
  ∀ way w, way <+: rest → way ≠ rest → m.at? first way = some w → p w

theorem Along.head {p : Value → Prop} (h : m.Along first (key :: path) p)
    (hw : m.find? first = some w) : p w :=
  h [] w List.nil_prefix (List.cons_ne_nil _ _).symm hw

theorem Along.tail {p : Value → Prop} (h : m.Along first (key :: path) p)
    (hw : m.find? first = some w) (hes : w.entries? = some es) : es.Along key path p := by
  intro way x hway hne hx
  refine h (key :: way) x (List.cons_prefix_cons.mpr ⟨rfl, hway⟩) (fun heq => ?_) ?_
  · exact hne (List.cons.inj heq).2
  · rw [at?_cons_of_entries? hw hes]
    exact hx

/-- What the upper mapping holds at the end of a path is found there, if it is no mapping. -/
theorem at?_overlay_of_upper (hr : overlay base update = some r)
    (h : update.at? first rest = some v) (hv : v.entries? = none) :
    r.at? first rest = some v := by
  induction rest generalizing base update r first with
  | nil =>
    have h : update.find? first = some v := h
    change r.find? first = some v
    cases find?_overlay hr first with
    | lower hu => cases hu.symm.trans h
    | upper hu _ hfound => exact hfound.trans (hu.symm.trans h)
    | both _ hu _ hentries =>
      cases hu.symm.trans h
      cases hv.symm.trans hentries
  | cons key path ih =>
    obtain ⟨u, entries, hu, hentries, hpath⟩ := at?_cons_eq_some.mp h
    rw [at?_cons_eq_some]
    cases find?_overlay hr first with
    | lower hu' => cases hu'.symm.trans hu
    | upper hu' _ hfound =>
      cases hu'.symm.trans hu
      exact ⟨_, entries, hfound, hentries, hpath⟩
    | both _ hu' _ hentries' hm hfound =>
      -- the path goes on through both mappings
      cases hu'.symm.trans hu
      cases hentries'.symm.trans hentries
      exact ⟨_, _, hfound, rfl, ih hm hpath⟩

/-- What the lower mapping holds at the end of a path is found there, if the upper one holds nothing
there and nothing but mappings on the way. -/
theorem at?_overlay_of_lower (hr : overlay base update = some r)
    (h : base.at? first rest = some v) (hnone : update.at? first rest = none)
    (hupper : update.Along first rest fun w => w.entries?.isSome = true) :
    r.at? first rest = some v := by
  induction rest generalizing base update r first with
  | nil =>
    have h : base.find? first = some v := h
    have hnone : update.find? first = none := hnone
    change r.find? first = some v
    cases find?_overlay hr first with
    | lower _ hfound => exact hfound.trans h
    | upper hu => cases hnone.symm.trans hu
    | both _ hu => cases hnone.symm.trans hu
  | cons key path ih =>
    obtain ⟨w, es, hw, hes, hpath⟩ := at?_cons_eq_some.mp h
    rw [at?_cons_eq_some]
    cases find?_overlay hr first with
    | lower _ hfound => exact ⟨w, es, hfound.trans hw, hes, hpath⟩
    | upper hu hone =>
      -- what stands alone on the way would be no mapping
      have hsome := hupper.head hu
      rcases hone w hw with hw' | hu'
      · cases hes.symm.trans hw'
      · rw [hu'] at hsome
        cases hsome
    | both hw' hu hes' hentries hm hfound =>
      cases hw'.symm.trans hw
      cases hes'.symm.trans hes
      refine ⟨_, _, hfound, rfl, ih hm hpath ?_ (hupper.tail hu hentries)⟩
      rw [← at?_cons_of_entries? hu hentries]
      exact hnone

/-- What is found at the end of a path is there in one of the two mappings; and if it is no mapping,
it is the value that this one holds. -/
theorem of_at?_overlay (hr : overlay base update = some r) (h : r.at? first rest = some v) :
    (∃ w, base.at? first rest = some w ∧ (v.entries? = none → w = v)) ∨
      ∃ u, update.at? first rest = some u ∧ (v.entries? = none → u = v) := by
  induction rest generalizing base update r first with
  | nil =>
    have h : r.find? first = some v := h
    change (∃ w, base.find? first = some w ∧ _) ∨ ∃ u, update.find? first = some u ∧ _
    cases find?_overlay hr first with
    | lower _ hfound => exact Or.inl ⟨v, hfound.symm.trans h, fun _ => rfl⟩
    | upper hu _ hfound => exact Or.inr ⟨v, hu.trans (hfound.symm.trans h), fun _ => rfl⟩
    | both _ hu _ _ _ hfound =>
      cases hfound.symm.trans h
      exact Or.inr ⟨_, hu, fun hnone => nomatch hnone⟩
  | cons key path ih =>
    obtain ⟨x, xs, hx, hxs, hpath⟩ := at?_cons_eq_some.mp h
    cases find?_overlay hr first with
    | lower _ hfound =>
      exact Or.inl ⟨v, at?_cons_eq_some.mpr ⟨x, xs, hfound.symm.trans hx, hxs, hpath⟩, fun _ => rfl⟩
    | upper hu _ hfound =>
      refine Or.inr ⟨v, at?_cons_eq_some.mpr ⟨x, xs, ?_, hxs, hpath⟩, fun _ => rfl⟩
      exact hu.trans (hfound.symm.trans hx)
    | both hw hu hes hentries hm hfound =>
      -- the path has gone through both mappings
      cases hfound.symm.trans hx
      cases hxs
      rw [at?_cons_of_entries? hw hes, at?_cons_of_entries? hu hentries]
      exact ih hm hpath

/-! ### Whether there is an end -/

/-- The mappings that two mappings hold under a common key, so that the one is laid over the other
where this is done with the two. -/
def Nested (inner outer : Mapping × Mapping) : Prop :=
  ∃ key w u, (key, w) ∈ outer.1 ∧ outer.2.find? key = some u ∧
    w.entries? = some inner.1 ∧ u.entries? = some inner.2

theorem Nested.of_find? (hw : base.find? key = some w) (hu : update.find? key = some u)
    (hes : w.entries? = some es) (hentries : u.entries? = some entries) :
    Nested (es, entries) (base, update) := by
  obtain ⟨k, hk, hmem⟩ := exists_of_find? hw
  exact ⟨k, w, u, hmem, (find?_congr hk).trans hu, hes, hentries⟩

/-- Two mappings hold mappings under common keys, these do so as well, and so on and on. -/
def Endless (base update : Mapping) : Prop :=
  ∃ f : ℕ → Mapping × Mapping, f 0 = (base, update) ∧ ∀ n, Nested (f (n + 1)) (f n)

/-- A result is there only after an end. -/
theorem acc_of_overlay (h : overlay base update = some r) : Acc Nested (base, update) := by
  refine (Value.under.mutual_partial_correctness
    (fun upper lower _ => ∀ es entries, lower.entries? = some es → upper.entries? = some entries →
      Acc Nested (es, entries))
    (fun base update _ => Acc Nested (base, update)) ?_ ?_).2 base update r h
  · intro overlay ih upper lower v hv es entries hes hentries
    rw [hes, hentries] at hv
    obtain ⟨m, hm, -⟩ := Option.bind_eq_some_iff.mp hv
    exact ih es entries m hm
  · intro under ih base update r hr
    obtain ⟨kept, hkept, -⟩ := Option.bind_eq_some_iff.mp hr
    refine ⟨_, ?_⟩
    rintro ⟨es, entries⟩ ⟨key, w, u, hw, hu, hes, hentries⟩
    -- the two values were laid over each other
    obtain ⟨e', -, he'⟩ := exists_left_of_forall₂ (mapM_eq_some_iff.mp hkept).flip hw
    change (match update.find? key with
      | some u => do return (key, ← under u w)
      | none => some (key, w)) = some e' at he'
    rw [hu] at he'
    obtain ⟨v, hv, -⟩ := Option.bind_eq_some_iff.mp he'
    exact ih u w v hv es entries hes hentries

/-- After an end there is a result. -/
theorem exists_overlay_of_acc {s : Mapping × Mapping} (h : Acc Nested s) :
    ∃ r, overlay s.1 s.2 = some r := by
  induction h with
  | intro s _ ih =>
    -- there is a result for every entry, and so for all of them
    have hentry : ∀ e ∈ s.1, ∃ e', BecomesUnder s.2 e e' := by
      rintro ⟨key, w⟩ hw
      cases hu : s.2.find? key with
      | none => exact ⟨(key, w), rfl, by dsimp only; rw [hu]⟩
      | some u =>
        have hunder : ∃ v, u.under w = some v := by
          by_cases hone : w.entries? = none ∨ u.entries? = none
          · exact ⟨u, Value.under_of_none hone⟩
          · obtain ⟨es, hes⟩ := Option.ne_none_iff_exists'.mp fun hnone => hone (Or.inl hnone)
            obtain ⟨entries, hentries⟩ :=
              Option.ne_none_iff_exists'.mp fun hnone => hone (Or.inr hnone)
            obtain ⟨m, hm⟩ := ih (es, entries) ⟨key, w, u, hw, hu, hes, hentries⟩
            exact ⟨.map m, by rw [Value.under_of_entries? hes hentries, hm]; rfl⟩
        obtain ⟨v, hv⟩ := hunder
        exact ⟨(key, v), rfl, by dsimp only; rw [hu]; exact hv⟩
    choose! become hbecome using hentry
    have hkept : List.Forall₂ (BecomesUnder s.2) s.1 (s.1.map become) :=
      List.forall₂_map_right_iff.mpr (List.forall₂_same.mpr hbecome)
    exact ⟨_, overlay_eq_some_iff.mpr ⟨_, hkept, rfl⟩⟩

/-- There is a result unless the two mappings hold mappings under common keys on and on. -/
theorem overlay_eq_none_iff : overlay base update = none ↔ Endless base update := by
  rw [Endless, ← not_acc_iff_exists_descending_chain, Option.eq_none_iff_forall_ne_some]
  constructor
  · intro hnone hacc
    obtain ⟨r, hr⟩ := exists_overlay_of_acc hacc
    exact hnone r hr
  · exact fun hnot r hr => hnot (acc_of_overlay hr)

/-! ### The same mapping once more -/

/-- No mapping that a path leads to has a key twice, nor does the mapping itself. -/
structure IsSound (m : Mapping) : Prop where
  distinct : m.HasDistinctKeys
  below : ∀ first rest v es, m.at? first rest = some v → v.entries? = some es →
    es.HasDistinctKeys

theorem IsSound.of_find? (h : m.IsSound) (hv : m.find? key = some v)
    (hes : v.entries? = some es) : es.IsSound where
  distinct := h.below key [] v es hv hes
  below first rest w entries hw := by
    refine h.below key (first :: rest) w entries ?_
    rw [at?_cons_of_entries? hv hes]
    exact hw

/-- An entry of the mapping that is laid over another one stands for what is found under its key. -/
theorem IsSound.eq_of_mem (h : m.IsSound) (hw : (key, w) ∈ m) (hu : m.find? key = some u) :
    w = u :=
  Option.some.inj ((find?_of_mem h.distinct hw (Scalar.sameKey_refl key)).symm.trans hu)

/-- A mapping that no mapping in it is part of itself, and none of which has a key twice. -/
inductive IsTree : Mapping → Prop
  | intro {m : Mapping} : m.HasDistinctKeys →
      (∀ e ∈ m, ∀ es, e.2.entries? = some es → e.2 = .map es) →
      (∀ e ∈ m, ∀ es, e.2.entries? = some es → IsTree es) → IsTree m

theorem contains_overlay (hr : overlay base update = some r) (key : Scalar) :
    r.contains key = (base.contains key || update.contains key) := by
  rw [contains, contains, contains]
  cases find?_overlay hr key with
  | lower hu hfound => rw [hfound, hu, Option.isSome_none, Bool.or_false]
  | upper hu _ hfound =>
    rw [hfound, hu]
    exact (Bool.or_true _).symm
  | both _ hu _ _ _ hfound =>
    rw [hfound, hu]
    exact (Bool.or_true _).symm

/-- The result has all keys of the upper mapping. -/
theorem without_overlay (hr : overlay base update = some r) : update.without r = [] := by
  refine List.filter_eq_nil_iff.mpr fun e he => ?_
  have hmem : update.contains e.1 = true := isSome_find?_of_mem he
  simp [contains_overlay hr, hmem]

theorem keys_kept (h : List.Forall₂ (BecomesUnder update) base kept) : kept.keys = base.keys := by
  induction h with
  | nil => rfl
  | cons he _ ih => exact congrArg₂ List.cons he.1 ih

/-- Laying the mapping over the result once more adds no key. -/
theorem keys_overlay_overlay (hr : overlay base update = some r)
    (hr' : overlay r update = some r') :
    r'.keys = r.keys := by
  obtain ⟨kept, hkept, rfl⟩ := overlay_eq_some_iff.mp hr'
  rw [without_overlay hr, List.append_nil, keys_kept hkept]

/-- Under a key there is after the second time what was there before, or two results for one mapping
that is laid over another one. -/
theorem find?_overlay_overlay (hr : overlay base update = some r)
    (hr' : overlay r update = some r') (key : Scalar) :
    r'.find? key = r.find? key ∨
      ∃ w lower upper m m', r.find? key = some w ∧ w.entries? = some m ∧
        r'.find? key = some (.map m') ∧ overlay lower upper = some m ∧
        overlay m upper = some m' := by
  cases find?_overlay hr' key with
  | lower _ hfound => exact Or.inl hfound
  | @upper u hu hone hfound =>
    refine Or.inl (hfound.trans ?_)
    cases find?_overlay hr key with
    | lower hu' => cases hu'.symm.trans hu
    | upper hu' _ hfound' => exact hu.symm.trans (hu'.trans hfound'.symm)
    | both _ hu' _ hentries _ hfound' =>
      cases hu'.symm.trans hu
      rcases hone _ hfound' with hnone | hnone
      · cases hnone
      · cases hnone.symm.trans hentries
  | @both w u m entries m' hw hu hm hentries hm' hfound =>
    refine Or.inr ?_
    cases find?_overlay hr key with
    | lower hu' => cases hu'.symm.trans hu
    | upper hu' _ hfound' =>
      -- the upper mapping stands alone in the first result
      cases hu'.symm.trans hu
      cases hw.symm.trans hfound'
      cases hm.symm.trans hentries
      exact ⟨_, [], m, m, m', hw, hm, hfound, nil_overlay m, hm'⟩
    | @both _ _ es _ _ _ hu' _ hentries' hes hfound' =>
      cases hu'.symm.trans hu
      cases hentries'.symm.trans hentries
      cases hw.symm.trans hfound'
      cases hm
      exact ⟨_, es, entries, m, m', hw, rfl, hfound, hes, hm'⟩

end Mapping

/-- Two values say the same for themselves: both are the same value and no mapping, or both are
mappings with the same keys in the same order. -/
def Value.Alike (v w : Value) : Prop :=
  match v.entries?, w.entries? with
  | none, none => v = w
  | some es, some entries => es.keys = entries.keys
  | _, _ => False

@[refl] theorem Value.Alike.refl (v : Value) : v.Alike v := by
  unfold Alike
  cases v.entries? <;> rfl

namespace Mapping

variable {base update m r r' es entries kept : Mapping} {key key' first : Scalar}
  {rest path : List Scalar} {u v w : Value}

/-- Two mappings hold the same: they have the same keys in the same order, and so have the mappings
at the end of every path; what else is at the end of a path is the same value. -/
def Alike (m m' : Mapping) : Prop :=
  m.keys = m'.keys ∧ ∀ first rest, Option.Rel Value.Alike (m.at? first rest) (m'.at? first rest)

theorem rel_at?_overlay_overlay (hr : overlay base update = some r)
    (hr' : overlay r update = some r') (first : Scalar) (rest : List Scalar) :
    Option.Rel Value.Alike (r'.at? first rest) (r.at? first rest) := by
  have hrefl : ∀ o : Option Value, Option.Rel Value.Alike o o := fun o => by
    cases o with
    | none => exact .none
    | some v => exact .some (.refl v)
  induction rest generalizing base update r r' first with
  | nil =>
    change Option.Rel Value.Alike (r'.find? first) (r.find? first)
    rcases find?_overlay_overlay hr hr' first with
      hsame | ⟨w, lower, upper, m, m', hw, hm, hfound, hlower, hagain⟩
    · rw [hsame]
      exact hrefl _
    · rw [hw, hfound]
      refine .some ?_
      rw [Value.Alike, hm]
      exact keys_overlay_overlay hlower hagain
  | cons key path ih =>
    rcases find?_overlay_overlay hr hr' first with
      hsame | ⟨w, lower, upper, m, m', hw, hm, hfound, hlower, hagain⟩
    · rw [at?_cons, at?_cons, hsame]
      exact hrefl _
    · rw [at?_cons_of_entries? hw hm, at?_cons_of_entries? hfound rfl]
      exact ih hlower hagain key

/-- Laying a mapping over the result once more changes nothing, not even the order of keys, if there
is an end to it. -/
theorem alike_of_overlay (hr : overlay base update = some r) (hr' : overlay r update = some r') :
    r'.Alike r :=
  ⟨keys_overlay_overlay hr hr', rel_at?_overlay_overlay hr hr'⟩

/-- The result leads on and on through what the mapping itself holds, and nothing else. -/
theorem acc_overlay_iff (h : update.IsSound) (hr : overlay base update = some r) :
    Acc Nested (r, update) ↔ Acc Nested (update, update) := by
  constructor
  · intro hacc
    generalize hs : (r, update) = s at hacc
    induction hacc generalizing base update r with
    | intro s _ ih =>
      subst hs
      refine ⟨_, ?_⟩
      rintro ⟨es, entries⟩ ⟨key, w, u, hw, hu, hes, hentries⟩
      obtain rfl := h.eq_of_mem hw hu
      cases hes.symm.trans hentries
      have hsound : es.IsSound := h.of_find? hu hes
      cases find?_overlay hr key with
      | lower hu' => cases hu'.symm.trans hu
      | upper hu' _ hfound =>
        cases hu'.symm.trans hu
        exact ih (es, es) (.of_find? hfound hu hes hes) hsound (nil_overlay es) rfl
      | both _ hu' _ hentries' hm hfound =>
        cases hu'.symm.trans hu
        cases hentries'.symm.trans hes
        exact ih (_, es) (.of_find? hfound hu rfl hes) hsound hm rfl
  · intro hacc
    generalize hs : (update, update) = s at hacc
    induction hacc generalizing base update r with
    | intro s _ ih =>
      subst hs
      refine ⟨_, ?_⟩
      rintro ⟨es, entries⟩ ⟨key, w, u, hw, hu, hes, hentries⟩
      have hsound : entries.IsSound := h.of_find? hu hentries
      have hnested : Nested (entries, entries) (update, update) :=
        .of_find? hu hu hentries hentries
      obtain ⟨kept, hkept, rfl⟩ := overlay_eq_some_iff.mp hr
      have halone : w = u → Acc Nested (es, entries) := by
        rintro rfl
        cases hes.symm.trans hentries
        exact ih _ hnested hsound (nil_overlay es) rfl
      rcases List.mem_append.mp hw with hw | hw
      · obtain ⟨⟨k, w'⟩, -, hk, hbecomes⟩ := exists_left_of_forall₂ hkept hw
        obtain rfl : key = k := hk
        dsimp only at hbecomes
        rw [hu] at hbecomes
        rcases Value.under_eq_some_iff.mp hbecomes with
          ⟨_, entries', m, -, hentries', hm, rfl⟩ | ⟨-, heq⟩
        · cases hentries'.symm.trans hentries
          cases hes
          exact ih _ hnested hsound hm rfl
        · exact halone heq
      · exact halone (h.eq_of_mem (List.mem_of_mem_filter hw) hu)

namespace IsTree

theorem of_forall_mem (hdistinct : m.HasDistinctKeys)
    (h : ∀ e ∈ m, e.2.entries? = none ∨ ∃ es, e.2 = .map es ∧ IsTree es) : m.IsTree := by
  refine .intro hdistinct (fun e he es hes => ?_) fun e he es hes => ?_
  all_goals
    rcases h e he with hnone | ⟨es', heq, htree⟩
    · cases hnone.symm.trans hes
    · rw [heq] at hes
      cases hes
      assumption

/-- A mapping that holds no mapping. -/
theorem of_flat (hdistinct : m.HasDistinctKeys) (hflat : ∀ e ∈ m, e.2.entries? = none) :
    m.IsTree :=
  of_forall_mem hdistinct fun e he => Or.inl (hflat e he)

/-- What is laid over a tree comes to an end with it. -/
theorem acc_lower (h : base.IsTree) (update : Mapping) : Acc Nested (base, update) := by
  induction h generalizing update with
  | intro _ _ _ ih =>
    refine ⟨_, ?_⟩
    rintro ⟨es, entries⟩ ⟨key, w, u, hw, -, hes, -⟩
    exact ih _ hw es hes entries

/-- A tree that is laid over anything comes to an end. -/
theorem acc_upper (h : update.IsTree) (base : Mapping) : Acc Nested (base, update) := by
  induction h generalizing base with
  | intro _ _ _ ih =>
    refine ⟨_, ?_⟩
    rintro ⟨es, entries⟩ ⟨key, w, u, -, hu, -, hentries⟩
    obtain ⟨k, -, hmem⟩ := exists_of_find? hu
    exact ih _ hmem entries hentries es

/-- A tree that is laid over the result once more leaves it as it is. -/
theorem overlay_overlay (h : update.IsTree) (hr : overlay base update = some r) :
    overlay r update = some r := by
  induction h generalizing base r with
  | @intro update hdistinct hmap htree ih =>
    -- a value laid over itself
    have hself : ∀ e ∈ update, e.2.under e.2 = some e.2 := by
      intro e he
      cases hes : e.2.entries? with
      | none => exact Value.under_of_none (Or.inl hes)
      | some es =>
        rw [Value.under_of_entries? hes hes, ih e he es hes (nil_overlay es), hmap e he es hes]
        rfl
    obtain ⟨kept, hkept, heq⟩ := overlay_eq_some_iff.mp hr
    refine overlay_eq_some_iff.mpr ⟨r, List.forall₂_same.mpr fun e he => ⟨rfl, ?_⟩, ?_⟩
    · cases hu : update.find? e.1 with
      | none => rfl
      | some u =>
        obtain ⟨k, -, hmem⟩ := exists_of_find? hu
        have halone : e.2 = u → u.under e.2 = some e.2 := fun h => by
          rw [h]
          exact hself _ hmem
        rw [heq] at he
        rcases List.mem_append.mp he with he | he
        · obtain ⟨e', -, hk, hbecomes⟩ := exists_left_of_forall₂ hkept he
          rw [← hk, hu] at hbecomes
          rcases Value.under_eq_some_iff.mp hbecomes with
            ⟨_, entries, m, -, hentries, hm, hmerged⟩ | ⟨-, hone⟩
          · dsimp only
            rw [hmerged, Value.under_of_entries? rfl hentries, ih _ hmem entries hentries hm]
            rfl
          · exact halone hone
        · exact halone (Option.some.inj ((find?_of_mem hdistinct (List.mem_of_mem_filter he)
            (Scalar.sameKey_refl e.1)).symm.trans hu))
    · rw [without_overlay hr, List.append_nil]

end IsTree

/-! ### All of it -/

/-- A mapping laid over another one decides path by path what is found: whatever it holds that is no
mapping stays; what the lower one holds, and it does not reach, stays; and there is nothing else.
Neither the mapping over nothing nor nothing over a mapping changes it. There is a result unless the
two hold mappings under common keys on and on. The mapping changes nothing when it is laid over the
result again, and this comes to an end unless it leads from mapping to mapping on and on itself. -/
theorem overlay_pathwise (base update : Mapping) :
    (overlay base update = none ↔ Endless base update) ∧
    (base.IsTree ∨ update.IsTree → (overlay base update).isSome = true) ∧
    (∀ r, overlay base update = some r →
      (∀ first rest v, update.at? first rest = some v → v.entries? = none →
        r.at? first rest = some v) ∧
      (∀ first rest v, base.at? first rest = some v → update.at? first rest = none →
        (update.Along first rest fun w => w.entries?.isSome = true) →
        r.at? first rest = some v) ∧
      (∀ first rest v, r.at? first rest = some v →
        (∃ w, base.at? first rest = some w ∧ (v.entries? = none → w = v)) ∨
          ∃ u, update.at? first rest = some u ∧ (v.entries? = none → u = v)) ∧
      (∀ r', overlay r update = some r' → r'.Alike r) ∧
      (update.IsSound → (overlay r update = none ↔ Endless update update)) ∧
      (update.IsTree → overlay r update = some r)) ∧
    overlay base [] = some base ∧ overlay [] update = some update := by
  refine ⟨overlay_eq_none_iff, fun h => ?_, fun r hr => ?_, overlay_nil base, nil_overlay update⟩
  · have hacc : Acc Nested (base, update) := by
      rcases h with h | h
      · exact h.acc_lower update
      · exact h.acc_upper base
    exact Option.isSome_iff_exists.mpr (exists_overlay_of_acc hacc)
  · refine ⟨fun _ _ _ => at?_overlay_of_upper hr, fun _ _ _ => at?_overlay_of_lower hr,
      fun _ _ _ => of_at?_overlay hr, fun _ => alike_of_overlay hr, fun h => ?_,
      fun h => h.overlay_overlay hr⟩
    rw [overlay_eq_none_iff, Endless, Endless, ← not_acc_iff_exists_descending_chain,
      ← not_acc_iff_exists_descending_chain, acc_overlay_iff h hr]

/-- A number as a key, under which there are a text and a mapping; a text; and a mapping that is
part of itself. -/
def plainBase : Mapping :=
  [(.int 1, .map [(.text "a", .text "x"), (.text "b", .map [(.text "c", .text "y")])]),
    (.text "k", .text "old"),
    (.text "t", .knot 0 (.map [(.text "n", .int 1), (.text "self", .again 0 .map)]))]

/-- A truth value as a key, which is the same as the number, and under it a text in the place of the
mapping; a mapping in the place of the text; and a mapping for the one that is part of itself. -/
def plainUpdate : Mapping :=
  [(.text "k", .map [(.text "a", .text "z")]),
    (.bool true, .map [(.text "d", .text "new"), (.text "b", .text "flat")]),
    (.text "t", .map [(.text "self", .map [(.text "n", .int 2)])])]

theorem isTree_plainUpdate : plainUpdate.IsTree := by
  have hscalar : ∀ s, (Value.scalar s).entries? = none := fun _ => rfl
  have hself : IsTree [(.text "n", .int 2)] := .of_flat (by decide) (by simp [hscalar])
  refine .of_forall_mem (by decide) fun e he => Or.inr ?_
  simp only [plainUpdate, List.mem_cons, List.not_mem_nil, or_false] at he
  rcases he with rfl | rfl | rfl
  · exact ⟨_, rfl, .of_flat (by decide) (by simp [hscalar])⟩
  · exact ⟨_, rfl, .of_flat (by decide) (by simp [hscalar])⟩
  · exact ⟨_, rfl, .of_forall_mem (by decide) (by simpa using hself)⟩

/-- A mapping that is part of itself. -/
def loop : Value := .knot 0 (.map [(.text "self", .again 0 .map)])

/-- A mapping that leads to it. -/
def coil : Mapping := [(.text "t", loop)]

theorem isSound_coil : coil.IsSound := by
  have hloop : ∀ rest first key v, at? [(key, loop)] first rest = some v → v = loop := by
    intro rest
    induction rest with
    | nil =>
      intro first key v hv
      have hv : find? [(key, loop)] first = some v := hv
      rw [find?_cons] at hv
      split at hv
      · exact (Option.some.inj hv).symm
      · cases hv
    | cons next path ih =>
      intro first key v hv
      obtain ⟨w, es, hw, hes, hpath⟩ := at?_cons_eq_some.mp hv
      rw [find?_cons] at hw
      split at hw
      · cases hw
        cases hes
        exact ih next _ v hpath
      · cases hw
  refine ⟨by decide, fun first rest v es hv hes => ?_⟩
  obtain rfl := hloop rest first _ v hv
  cases hes
  decide

theorem endless_coil : Endless coil coil := by
  refine ⟨fun n => n.casesOn (coil, coil) fun _ => ([(.text "self", loop)], [(.text "self", loop)]),
    rfl, fun n => ?_⟩
  cases n with
  | zero => exact ⟨.text "t", loop, loop, List.mem_singleton.mpr rfl, rfl, rfl, rfl⟩
  | succ n => exact ⟨.text "self", loop, loop, List.mem_singleton.mpr rfl, rfl, rfl, rfl⟩

/-- The one laid over the other: an entry of the lower mapping stays only where no text stands in
its way, and a mapping that is part of itself is opened as far as the upper one reaches. Where there
is no end, there is no result. -/
theorem overlay_pathwise_plain :
    (∃ r, overlay plainBase plainUpdate = some r ∧
      r.at? (.bool true) [.text "b"] = some (.text "flat") ∧
      r.at? (.bool true) [.text "a"] = some (.text "x") ∧
      r.at? (.text "t") [.text "n"] = some (.int 1) ∧
      r.at? (.text "t") [.text "self", .text "n"] = some (.int 2) ∧
      overlay r plainUpdate = some r) ∧
    overlay [] coil = some coil ∧ overlay coil coil = none := by
  constructor
  · obtain ⟨-, hends, hresult, -⟩ := overlay_pathwise plainBase plainUpdate
    obtain ⟨r, hr⟩ := Option.isSome_iff_exists.mp (hends (Or.inr isTree_plainUpdate))
    obtain ⟨hupper, hlower, -, -, -, hagain⟩ := hresult r hr
    -- on a path of two keys there is but the first before the end
    have hway : ∀ {first key w}, plainUpdate.find? first = some w → w.entries?.isSome = true →
        plainUpdate.Along first [key] fun w => w.entries?.isSome = true := by
      intro first key w hw hsome way x hway hne hx
      obtain rfl : way = [] := by
        rcases List.prefix_cons_iff.mp hway with rfl | ⟨way, rfl, hnil⟩
        · rfl
        · exact absurd (congrArg _ (List.prefix_nil.mp hnil)) hne
      cases hx.symm.trans hw
      exact hsome
    exact ⟨r, hr, hupper _ _ _ rfl rfl, hlower _ _ _ rfl rfl (hway rfl rfl),
      hlower _ _ _ rfl rfl (hway rfl rfl), hupper _ _ _ rfl rfl, hagain isTree_plainUpdate⟩
  · obtain ⟨-, -, hresult, -, hover⟩ := overlay_pathwise [] coil
    obtain ⟨-, -, -, -, hnone, -⟩ := hresult coil hover
    exact ⟨hover, (hnone isSound_coil).mpr endless_coil⟩

/-- Laid over nothing a mapping that is part of itself is the result, and over the result it cannot
be laid. -/
theorem not_overlay_overlay : ¬∀ base update r : Mapping, update.IsSound →
    overlay base update = some r → ∃ r', overlay r update = some r' ∧ r'.Alike r := by
  intro h
  obtain ⟨r', hr', -⟩ := h [] coil coil isSound_coil (nil_overlay coil)
  exact nomatch (overlay_eq_none_iff.mpr endless_coil).symm.trans hr'

end Mapping

namespace Config

/-- Any mapping can be laid over the defaults, also one that is part of itself. -/
theorem exists_layer_defaults {update : Value} {entries : Mapping}
    (h : update.entries? = some entries) : ∃ config, layer defaults update = .ok config := by
  have htree : Mapping.IsTree defaults := by
    have hscalar : ∀ s, (Value.scalar s).entries? = none := fun _ => rfl
    refine .of_forall_mem (by decide) fun e he => ?_
    simp only [defaults, List.mem_cons, List.not_mem_nil, or_false] at he
    rcases he with rfl | rfl | rfl | rfl | rfl | rfl | rfl
    · exact Or.inr ⟨_, rfl, .of_flat (by decide) (by simp [hscalar])⟩
    · exact Or.inl rfl
    · exact Or.inr ⟨_, rfl, .of_flat (by decide) (by simp [hscalar])⟩
    all_goals exact Or.inl rfl
  obtain ⟨r, hr⟩ := Mapping.exists_overlay_of_acc (htree.acc_lower entries)
  refine ⟨r, ?_⟩
  rw [layer, h]
  dsimp only at hr ⊢
  rw [hr]

end Config

end DocLineage
