import DocLineage.Value.Basic

/-!
# Laying one mapping over another

A configuration file is laid over the defaults: where both hold a mapping under a key the two are
merged in the same way, and otherwise the upper value replaces the lower one. Keys keep the place
where they first stood; new keys follow in the order of the upper mapping.

Mappings may be part of themselves, so that there may be no end to this: overlays are the least
solution of their equations.

## Main definitions

* `Mapping.overlay` — one mapping laid over another
* `Mapping.at?` — the value at the end of a path of keys
-/

namespace DocLineage

namespace Mapping

/-- The key has an entry. -/
def contains (m : Mapping) (key : Scalar) : Bool := (m.find? key).isSome

/-- The entries of a mapping under keys that another one does not have. -/
def without (m other : Mapping) : Mapping := m.filter fun e => !other.contains e.1

end Mapping

mutual

/-- A value with another one laid over it: where both are mappings the one is laid over the other,
and otherwise the upper one replaces the lower one. -/
def Value.under (upper lower : Value) : Option Value :=
  -- the call is named by a tactic, so that the term keeps no note of where it stands in the file
  letI overlay : Mapping → Mapping → Option Mapping := by apply Mapping.overlay
  match lower.entries?, upper.entries? with
  | some es, some entries => do return .map (← overlay es entries)
  | _, _ => some upper
partial_fixpoint

/-- The mapping `base` with `update` laid over it. There is no result if the two hold mappings under
common keys on and on, which they can only if both are part of themselves. -/
def Mapping.overlay (base update : Mapping) : Option Mapping :=
  letI under : Value → Value → Option Value := by apply Value.under
  do
    let kept ← base.mapM fun e =>
      match update.find? e.1 with
      | some u => do return (e.1, ← under u e.2)
      | none => some e
    return kept ++ update.without base
partial_fixpoint

end

namespace Mapping

/-- Nothing changes a mapping when it is laid over it. -/
@[simp] theorem overlay_nil (base : Mapping) : overlay base [] = some base := by
  have hkept : (base.mapM fun e => some e) = some base := by
    induction base with
    | nil => rfl
    | cons e es ih => rw [List.mapM_cons, ih]; rfl
  rw [overlay]
  simp only [find?_nil, hkept, without, List.filter_nil]
  exact congrArg some (List.append_nil base)

/-- A mapping laid over nothing stays as it is. -/
@[simp] theorem nil_overlay (update : Mapping) : overlay [] update = some update := by
  have h : update.filter (fun e => !contains [] e.1) = update :=
    List.filter_eq_self.mpr fun _ _ => rfl
  rw [overlay, without, h]
  rfl

/-- The value at the end of a path of keys, each but the last of which leads to a mapping. -/
def at? (m : Mapping) : (first : Scalar) → (rest : List Scalar) → Option Value
  | key, [] => m.find? key
  | key, key' :: path =>
    match (m.find? key).bind Value.entries? with
    | some inner => at? inner key' path
    | none => none

end Mapping

end DocLineage
