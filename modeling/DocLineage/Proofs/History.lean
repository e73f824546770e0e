import DocLineage.Proofs.SourceOrder

/-!
# What a doclet has inherited

A doclet is, at every step of a run, what it was when it had declared its ancestors, after the
merges of the passes over it. The ancestors can be read as they are now: what is merged is
complete, and a complete doclet does not change any more. Of the declarations of a doclet each one
is merged once or still pending.

## Main definitions

* `passesOver`, `mergesInto` — the passes over a doclet, and what they have merged in it
* `Replays` — the doclets of a run are the outcome of the merges so far
* `NamesDistinct`, `Resolution.DistinctNames` — no two of the doclets that have arrived, or of a
  list, go by the same name

## Main results

* `Execution.replays` — so they are at every step
* `Execution.exists_rank` — merges do not go round in circles
* `Execution.perm_mergesInto` — when names do not repeat, what was merged in a doclet is what its
  declarations and the complete names say, up to the order
-/

namespace DocLineage

/-- The passes over a doclet, in order. -/
def passesOver (ps : List Pass) (id : DocletId) : List Pass := ps.filter fun p => p.doclet = id

/-- What the passes over a doclet have merged in it, in order. -/
def mergesInto (ps : List Pass) (id : DocletId) : List Merge :=
  (passesOver ps id).flatMap Pass.merges

/-- The doclets of a run are the outcome of the merges so far. -/
structure Replays (placeholder : Value) (as : List Arrival) (ps : List Pass) (r : Run) : Prop where
  /-- Only doclets that have arrived are passed over. -/
  passed : ∀ p ∈ ps, p.doclet ∈ as.map Arrival.id
  /-- A pass merges what was declared last first. -/
  order : ∀ a ∈ as, ∀ p ∈ ps, p.doclet = a.id →
    (p.merges.map Merge.entry).Sublist a.declared.pending.reverse
  /-- What is merged is complete. -/
  merged : ∀ p ∈ ps, ∀ m ∈ p.merges, m.ancestor ∈ as.map Arrival.id ∧
    m.entry.identity ≠ [] ∧ (r.doclet m.ancestor).longname = m.entry.identity ∧
    (r.doclet m.ancestor).pending = []
  /-- Every declaration is merged once or pending. -/
  perm : ∀ a ∈ as, ((mergesInto ps a.id).map Merge.entry ++ (r.doclet a.id).pending).Perm
    a.declared.pending
  replayed : ∀ a ∈ as, r.doclet a.id =
    { a.declared.replay placeholder r.doclet (mergesInto ps a.id) with
      pending := (r.doclet a.id).pending }

/-- No two of the doclets that have arrived go by the same name. -/
def NamesDistinct (as : List Arrival) : Prop :=
  ∀ a ∈ as, ∀ b ∈ as, a.declared.longname = b.declared.longname → a.declared.longname ≠ [] →
    a.id = b.id

variable {settings : Settings} {placeholder : Value} {r₀ r r' : Run} {as : List Arrival}
  {a : Arrival} {p : Pass} {ps ps' : List Pass} {ws : List Wake} {busy : Option DocletId}
  {id : DocletId} {m : Merge}

@[simp] theorem passesOver_append :
    passesOver (ps ++ ps') id = passesOver ps id ++ passesOver ps' id :=
  List.filter_append ..

theorem mem_passesOver : p ∈ passesOver ps id ↔ p ∈ ps ∧ p.doclet = id := by
  simp [passesOver]

theorem mem_mergesInto :
    m ∈ mergesInto ps id ↔ ∃ p ∈ ps, p.doclet = id ∧ m ∈ p.merges := by
  simp [mergesInto, mem_passesOver, and_assoc]

/-- A further pass adds its merges to those in its doclet. -/
theorem mergesInto_append_singleton : mergesInto (ps ++ [p]) id =
    mergesInto ps id ++ if p.doclet = id then p.merges else [] := by
  rw [mergesInto, passesOver_append, List.flatMap_append, mergesInto]
  by_cases h : p.doclet = id <;> simp [passesOver, h]

theorem mergesInto_passOver {x : DocletId} : mergesInto (ps ++ [r.passOver id]) x =
    mergesInto ps x ++ if id = x then r.merges id else [] :=
  mergesInto_append_singleton

/-! ### One step -/

/-- A step leaves complete doclets as they are. -/
theorem Run.doclet_advance_of_complete {x : DocletId} (h : (r.doclet x).pending = []) :
    (r.advance placeholder id).1.doclet x = r.doclet x := by
  rw [doclet_advance]
  by_cases hx : x = id
  · subst hx
    rw [pass_of_complete h]
  · exact doclet_pass_of_ne hx

namespace Linked

/-- The doclet that was busy has inherited what the step has merged. -/
theorem doclet_advance_self (h : Linked as r ws (some id)) :
    (r.advance placeholder id).1.doclet id =
      { (r.doclet id).replay placeholder r.doclet (r.merges id) with
        pending := Run.stillPending r.registry (r.doclet id).pending } := by
  rw [Run.doclet_advance]
  by_cases hnil : (r.doclet id).pending = []
  · rw [Run.pass_of_complete hnil, Run.merges, hnil]
    show r.doclet id = { r.doclet id with pending := [] }
    rw [← hnil]
  · refine Run.doclet_pass_self fun k hk => hnil ?_
    exact (h.completed k id hk).2.2.2

/-- When names do not repeat, a named doclet that waits for nothing is the complete one of its
name. -/
theorem get?_completed_of_finished (h : Linked as r ws busy) (hnames : NamesDistinct as)
    (ha : a ∈ as) (hbusy : some a.id ≠ busy) (hnil : (r.doclet a.id).pending = [])
    (hlong : (r.doclet a.id).longname ≠ []) :
    r.registry.completed.get? (r.doclet a.id).longname = some a.id := by
  obtain ⟨x, hx⟩ := Option.isSome_iff_exists.mp (h.finished a ha hbusy hnil hlong)
  -- the name is complete under a doclet that goes by it; and there is only one
  obtain ⟨-, hxarrived, hxname, -⟩ := h.completed _ _ hx
  obtain ⟨b, hb, rfl⟩ := List.mem_map.mp hxarrived
  have hsame : b.declared.longname = a.declared.longname := by
    rw [← h.longname a ha, ← h.longname b hb, hxname]
  rw [hx, hnames b hb a ha hsame (by rw [hsame, ← h.longname a ha]; exact hlong)]

/-- What a step merges is complete. -/
theorem of_mem_merges (h : Linked as r ws busy) (hm : m ∈ r.merges id) :
    m.ancestor ∈ as.map Arrival.id ∧ m.entry.identity ≠ [] ∧
      (r.doclet m.ancestor).longname = m.entry.identity ∧
      (r.doclet m.ancestor).pending = [] := by
  obtain ⟨hne, harrived, hname, hnil⟩ := h.completed _ _ (Run.mem_merges.mp hm).2
  exact ⟨harrived, hne, hname, hnil⟩

/-- A step merges in the reverse of the order of declaration. -/
theorem entries_merges_sublist (h : Linked as r ws busy) (ha : a ∈ as) :
    ((r.merges a.id).map Merge.entry).Sublist a.declared.pending.reverse := by
  obtain ⟨gone, -, hpending⟩ := h.pending a ha
  -- what is merged is part of what is pending, and that is part of what was declared
  rw [Run.merges, Registry.map_entry_mergesOf, hpending]
  exact List.filter_sublist.trans (List.reverse_sublist.mpr List.filter_sublist)

end Linked

/-- What a step merges and what it leaves are together what was pending. -/
theorem Run.perm_entries_merges : ((r.merges id).map Merge.entry ++
    stillPending r.registry (r.doclet id).pending).Perm (r.doclet id).pending := by
  rw [merges, Registry.map_entry_mergesOf, List.filter_reverse, stillPending]
  exact ((List.reverse_perm _).append_right _).trans (List.filter_append_perm _ _)

namespace Replays

/-- Nothing is merged when a run begins. -/
theorem begin (placeholder : Value) (r : Run) : Replays placeholder [] [] r where
  passed _ hp := nomatch hp
  order _ ha := nomatch ha
  merged _ hp := nomatch hp
  perm _ ha := nomatch ha
  replayed _ ha := nomatch ha

/-- The journal does not count. -/
theorem note (h : Replays placeholder as ps r) (n : Notice) :
    Replays placeholder as ps (r.note n) :=
  ⟨h.passed, h.order, h.merged, h.perm, h.replayed⟩

/-- Nothing is merged in a doclet that has not arrived. -/
theorem mergesInto_eq_nil (h : Replays placeholder as ps r) (hid : id ∉ as.map Arrival.id) :
    mergesInto ps id = [] := by
  rw [List.eq_nil_iff_forall_not_mem]
  intro m hm
  obtain ⟨p, hp, rfl, -⟩ := mem_mergesInto.mp hm
  exact hid (h.passed p hp)

/-- What is merged in a doclet is complete. -/
theorem of_mem_mergesInto (h : Replays placeholder as ps r) (hm : m ∈ mergesInto ps id) :
    m.ancestor ∈ as.map Arrival.id ∧ m.entry.identity ≠ [] ∧
      (r.doclet m.ancestor).longname = m.entry.identity ∧
      (r.doclet m.ancestor).pending = [] := by
  obtain ⟨p, hp, -, hm⟩ := mem_mergesInto.mp hm
  exact h.merged p hp m hm

/-- Nothing is merged in a doclet when it arrives, and the others stay as they are. -/
theorem declare (h : Replays placeholder as ps r) (hid : id ∉ as.map Arrival.id)
    (hdeclared : r.declareAncestors settings id = (r', none)) :
    Replays placeholder (as ++ [⟨id, r'.doclet id⟩]) ps r' := by
  have hsame : ∀ x ∈ as.map Arrival.id, r'.doclet x = r.doclet x := fun _ hx =>
    Run.doclet_of_declareAncestors hdeclared hid hx
  have hnil := h.mergesInto_eq_nil hid
  constructor
  case passed =>
    intro p hp
    rw [List.map_append]
    exact List.mem_append_left _ (h.passed p hp)
  case order =>
    intro a ha p hp heq
    rcases List.mem_append.mp ha with ha | ha
    · exact h.order a ha p hp heq
    · -- there was no pass yet over the doclet that arrives
      rw [List.mem_singleton.mp ha] at heq
      subst heq
      exact absurd (h.passed p hp) hid
  case merged =>
    intro p hp m hm
    obtain ⟨harrived, hrest⟩ := h.merged p hp m hm
    rw [hsame _ harrived, List.map_append]
    exact ⟨List.mem_append_left _ harrived, hrest⟩
  case perm =>
    intro a ha
    rcases List.mem_append.mp ha with ha | ha
    · rw [hsame _ (List.mem_map_of_mem ha)]
      exact h.perm a ha
    · rw [List.mem_singleton.mp ha, hnil]
      exact .refl _
  case replayed =>
    intro a ha
    rcases List.mem_append.mp ha with ha | ha
    · rw [Doclet.replay_congr fun m hm => hsame _ (h.of_mem_mergesInto hm).1,
        hsame _ (List.mem_map_of_mem ha)]
      exact h.replayed a ha
    · rw [List.mem_singleton.mp ha, hnil]
      rfl

/-- A step adds its pass to the history of the doclet that was busy. -/
theorem advance (h : Replays placeholder as ps r) (hlinked : Linked as r ws (some id)) :
    Replays placeholder as (ps ++ [r.passOver id]) (r.advance placeholder id).1 := by
  have hread : ∀ x, ∀ m ∈ mergesInto ps x,
      (r.advance placeholder id).1.doclet m.ancestor = r.doclet m.ancestor := fun x m hm =>
    Run.doclet_advance_of_complete (h.of_mem_mergesInto hm).2.2.2
  have hread' : ∀ m ∈ r.merges id,
      (r.advance placeholder id).1.doclet m.ancestor = r.doclet m.ancestor := fun m hm =>
    Run.doclet_advance_of_complete (hlinked.of_mem_merges hm).2.2.2
  constructor
  case passed =>
    intro p hp
    rcases List.mem_append.mp hp with hp | hp
    · exact h.passed p hp
    · rw [List.mem_singleton.mp hp]
      exact hlinked.arrived id rfl
  case order =>
    intro a ha p hp heq
    rcases List.mem_append.mp hp with hp | hp
    · exact h.order a ha p hp heq
    · rw [List.mem_singleton.mp hp] at heq ⊢
      change id = a.id at heq
      subst heq
      exact hlinked.entries_merges_sublist ha
  case merged =>
    intro p hp m hm
    rcases List.mem_append.mp hp with hp | hp
    · obtain ⟨harrived, hrest⟩ := h.merged p hp m hm
      rw [Run.doclet_advance_of_complete hrest.2.2]
      exact ⟨harrived, hrest⟩
    · rw [List.mem_singleton.mp hp] at hm
      rw [hread' m hm]
      exact hlinked.of_mem_merges hm
  case perm =>
    intro a ha
    rw [mergesInto_passOver]
    by_cases hx : id = a.id
    · -- what the step merges was pending, and what it does not merge still is
      subst hx
      rw [if_pos rfl, hlinked.doclet_advance_self, List.map_append, List.append_assoc]
      exact (Run.perm_entries_merges.append_left _).trans (h.perm a ha)
    · rw [if_neg hx, List.append_nil, Run.doclet_advance, Run.doclet_pass_of_ne (Ne.symm hx)]
      exact h.perm a ha
  case replayed =>
    intro a ha
    rw [mergesInto_passOver]
    by_cases hx : id = a.id
    · subst hx
      rw [if_pos rfl, Doclet.replay_append, Doclet.replay_congr (hread a.id),
        Doclet.replay_congr hread', hlinked.doclet_advance_self]
      -- what was pending on the doclet makes no difference to what the step merges
      conv_lhs => rw [h.replayed a ha]
      rw [Doclet.replay_setPending]
    · rw [if_neg hx, List.append_nil, Doclet.replay_congr (hread a.id), Run.doclet_advance,
        Run.doclet_pass_of_ne (Ne.symm hx)]
      exact h.replayed a ha

end Replays

/-! ### A whole run -/

/-- Finitely many numbers are bounded. -/
theorem exists_bound {α : Type} (f : α → Nat) (l : List α) : ∃ n, ∀ a ∈ l, f a < n := by
  induction l with
  | nil => exact ⟨0, nofun⟩
  | cons a l ih =>
    obtain ⟨n, hn⟩ := ih
    refine ⟨max n (f a + 1), fun b hb => ?_⟩
    rcases List.mem_cons.mp hb with rfl | hb
    · omega
    · have hlt := hn b hb
      omega

namespace Execution

/-- At every step of a run the doclets are the outcome of the merges so far. -/
theorem replays (h : Execution settings r₀ as ps r ws busy) :
    Replays settings.placeholder as ps r := by
  induction h with
  | begin => exact .begin _ _
  | declare _ hid _ _ hdeclared ih => exact ih.declare hid hdeclared
  | takeUp _ ih => exact ih.note _
  | advance h ih => exact ih.advance h.linked

/-- What a complete doclet has declared was merged in some pass over it. -/
theorem exists_pass_of_complete (h : Execution settings r₀ as ps r ws busy) (ha : a ∈ as)
    (hnil : (r.doclet a.id).pending = []) {e : PendingAncestor} (he : e ∈ a.declared.pending) :
    ∃ p ∈ ps, p.doclet = a.id ∧ e ∈ p.merges.map Merge.entry := by
  have hperm := h.replays.perm a ha
  rw [hnil, List.append_nil] at hperm
  obtain ⟨m, hm, rfl⟩ := List.mem_map.mp (hperm.mem_iff.mpr he)
  obtain ⟨p, hp, hdoclet, hm⟩ := mem_mergesInto.mp hm
  exact ⟨p, hp, hdoclet, List.mem_map_of_mem hm⟩

/-- Merges do not go round in circles: the doclets have ranks, and whatever is merged in a doclet
has a lower one. -/
theorem exists_rank (h : Execution settings r₀ as ps r ws busy) :
    ∃ rank : DocletId → Nat, ∀ id, ∀ m ∈ mergesInto ps id, rank m.ancestor < rank id := by
  induction h with
  | begin => exact ⟨fun _ => 0, nofun⟩
  | declare _ _ _ _ _ ih => exact ih
  | takeUp _ ih => exact ih
  | @advance as ps r ws id h ih =>
    obtain ⟨rank, hrank⟩ := ih
    by_cases hnil : (r.doclet id).pending = []
    · -- a doclet that waits for nothing merges nothing
      have hmerges : r.merges id = [] := by
        rw [Run.merges, hnil]
        rfl
      refine ⟨rank, fun x m hm => hrank x m ?_⟩
      rw [mergesInto_passOver, hmerges, ite_self, List.append_nil] at hm
      exact hm
    · -- a doclet that still waits is merged in no other one, so that it may be ranked anew
      have hother : ∀ x, ∀ m ∈ mergesInto (ps ++ [r.passOver id]) x, m.ancestor ≠ id := by
        rintro x m hm rfl
        rw [mergesInto_passOver] at hm
        rcases List.mem_append.mp hm with hm | hm
        · exact hnil (h.replays.of_mem_mergesInto hm).2.2.2
        · split at hm
          · exact hnil (h.linked.of_mem_merges hm).2.2.2
          · cases hm
      obtain ⟨bound, hbound⟩ := exists_bound (fun m : Merge => rank m.ancestor)
        (mergesInto (ps ++ [r.passOver id]) id)
      refine ⟨fun x => if x = id then bound else rank x, fun x m hm => ?_⟩
      dsimp only
      rw [if_neg (hother x m hm)]
      split
      · next hx =>
        subst hx
        exact hbound m hm
      · next hx =>
        apply hrank x m
        rw [mergesInto_passOver, if_neg (Ne.symm hx), List.append_nil] at hm
        exact hm

/-- When names do not repeat, an ancestor that is merged is the complete doclet of its name. -/
theorem get?_completed_of_mem_mergesInto (h : Execution settings r₀ as ps r [] none)
    (hnames : NamesDistinct as) (hm : m ∈ mergesInto ps id) :
    r.registry.completed.get? m.entry.identity = some m.ancestor := by
  obtain ⟨harrived, hne, hname, hnil⟩ := h.replays.of_mem_mergesInto hm
  obtain ⟨a, ha, heq⟩ := List.mem_map.mp harrived
  rw [← heq] at hname hnil ⊢
  rw [← hname] at hne ⊢
  exact h.linked.get?_completed_of_finished hnames ha (by simp) hnil hne

/-- When names do not repeat, what was merged in a doclet is what its declarations and the complete
names say, up to the order. -/
theorem perm_mergesInto (h : Execution settings r₀ as ps r [] none) (hnames : NamesDistinct as)
    (ha : a ∈ as) :
    (mergesInto ps a.id).Perm (r.registry.mergesOf a.declared.pending) := by
  have hmerged : r.registry.mergesOf ((mergesInto ps a.id).map Merge.entry) =
      mergesInto ps a.id := by
    rw [Registry.mergesOf, List.filterMap_map]
    refine (List.filterMap_congr fun m hm => ?_).trans List.filterMap_some
    rw [Function.comp_apply, h.get?_completed_of_mem_mergesInto hnames hm]
    rfl
  -- what is still pending has no complete ancestor
  have hpending : r.registry.mergesOf (r.doclet a.id).pending = [] := by
    rw [h.linked.pending_eq ha, List.eq_nil_iff_forall_not_mem]
    intro m hm
    obtain ⟨hentry, hget⟩ := Registry.mem_mergesOf.mp hm
    rw [List.mem_filter, Table.contains, hget] at hentry
    cases hentry.2
  have hperm := (h.replays.perm a ha).filterMap fun e =>
    (r.registry.completed.get? e.identity).map fun x => (⟨x, e⟩ : Merge)
  change (r.registry.mergesOf _).Perm (r.registry.mergesOf _) at hperm
  rwa [Registry.mergesOf, List.filterMap_append, ← Registry.mergesOf, ← Registry.mergesOf, hmerged,
    hpending, List.append_nil] at hperm

end Execution

namespace Resolution

variable {doclets : List Doclet} {run : Run}

/-- No two doclets go by the same name. -/
def DistinctNames (doclets : List Doclet) : Prop :=
  doclets.Pairwise fun d d' => d.longname = d'.longname → d.longname = []

instance (doclets : List Doclet) : Decidable (DistinctNames doclets) :=
  inferInstanceAs (Decidable (doclets.Pairwise _))

/-- Where names do not repeat, a name tells the place of its doclet. -/
theorem DistinctNames.eq_of_longname (hnames : DistinctNames doclets) {i j : DocletId}
    (hi : i < doclets.length) (hj : j < doclets.length)
    (heq : ((Run.start doclets).doclet i).longname = ((Run.start doclets).doclet j).longname)
    (hne : ((Run.start doclets).doclet i).longname ≠ []) : i = j := by
  rw [doclet_start hi, doclet_start hj] at heq
  rw [doclet_start hi] at hne
  rw [DistinctNames, List.pairwise_iff_getElem] at hnames
  by_contra hij
  rcases Nat.lt_or_gt_of_ne hij with hlt | hlt
  · exact hne (hnames i j hi hj hlt heq)
  · exact hne (heq.trans (hnames j i hj hi hlt heq.symm))

theorem lt_length_of_documented (hid : id ∈ documented settings doclets) : id < doclets.length :=
  List.mem_range.mp (List.mem_filter.mp hid).1

/-- Names that do not repeat among the doclets do not repeat among the arrivals. -/
theorem DistinctNames.arrivals (hnames : DistinctNames doclets)
    (h : Execution settings (Run.start doclets)
      ((documented settings doclets).map (arrival settings doclets)) ps run ws busy) :
    NamesDistinct ((documented settings doclets).map (arrival settings doclets)) := by
  intro a ha b hb heq hne
  rw [(h.declares a ha).2.longname] at heq hne
  rw [(h.declares b hb).2.longname] at heq
  obtain ⟨i, hi, rfl⟩ := List.mem_map.mp ha
  obtain ⟨j, hj, rfl⟩ := List.mem_map.mp hb
  exact hnames.eq_of_longname (lt_length_of_documented hi) (lt_length_of_documented hj) heq hne

end Resolution

end DocLineage
