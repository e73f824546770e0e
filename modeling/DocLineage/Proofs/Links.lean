import DocLineage.Proofs.Execution

/-!
# The links between doclets and tables

What a doclet waits for and who is listed as waiting agree at every step of a run. In the middle of
a cascade a waiter that was set free is no longer listed; it stands on the agenda until it is taken
up, and the doclet that is just being taken up is excused.

## Main definitions

* `Linked` — the doclets, the tables and the agenda agree, one doclet excused

## Main results

* `Linked.advance` — a pass over the excused doclet makes it agree again
* `Linked.pending_eq` — without an agenda a doclet waits for its ancestors that are not complete
* `Execution.linked` — every state of a run is linked, with no doclet excused
* `Execution.doclet_of_not_arrived` — a doclet is not touched before it arrives
-/

namespace DocLineage

/-- The doclets that have arrived, the tables and the agenda agree. A doclet that is busy is
excused from being listed anywhere. -/
structure Linked (as : List Arrival) (r : Run) (ws : List Wake) (busy : Option DocletId) :
    Prop where
  nodup : (as.map Arrival.id).Nodup
  arrived : ∀ id, busy = some id → id ∈ as.map Arrival.id
  size : ∀ a ∈ as, a.id < r.doclets.size
  longname : ∀ a ∈ as, (r.doclet a.id).longname = a.declared.longname
  /-- What is not pending any more was declared on names that are complete. -/
  pending : ∀ a ∈ as, ∃ gone : Text → Bool,
    (∀ k, gone k = true → r.registry.completed.contains k = true) ∧
      (r.doclet a.id).pending = a.declared.pending.filter fun e => !gone e.identity
  /-- Whoever waits is listed, or is about to be taken up. -/
  awaited : ∀ a ∈ as, some a.id ≠ busy → ∀ e ∈ (r.doclet a.id).pending,
    a.id ∈ r.registry.waiters e.identity ∨ ⟨a.id, e.identity⟩ ∈ ws
  agenda : ∀ w ∈ ws, r.registry.completed.contains w.ancestor = true ∧ w.waiter ∈ as.map Arrival.id
  /-- No one is listed under a name that is complete. -/
  free : ∀ k, r.registry.completed.contains k = true → r.registry.waitingFor.contains k = false
  /-- Whoever is listed waits, and is listed once. -/
  listed : ∀ k, (r.registry.waiters k).Nodup ∧ ∀ id ∈ r.registry.waiters k,
    id ∈ as.map Arrival.id ∧ ∃ e ∈ (r.doclet id).pending, e.identity = k
  /-- A named doclet that waits for nothing is complete. -/
  finished : ∀ a ∈ as, some a.id ≠ busy → (r.doclet a.id).pending = [] →
    (r.doclet a.id).longname ≠ [] → r.registry.completed.contains (r.doclet a.id).longname = true
  completed : ∀ n id, r.registry.completed.get? n = some id →
    n ≠ [] ∧ id ∈ as.map Arrival.id ∧ (r.doclet id).longname = n ∧ (r.doclet id).pending = []
  waiting : ∀ n id, r.registry.waiting.get? n = some id →
    n ≠ [] ∧ id ∈ as.map Arrival.id ∧ (r.doclet id).longname = n ∧
      (some id ≠ busy → (r.doclet id).pending ≠ [])
  /-- Every named doclet is found by its name. -/
  found : ∀ a ∈ as, some a.id ≠ busy → (r.doclet a.id).longname ≠ [] →
    (r.registry.find? (r.doclet a.id).longname).isSome = true
  overrides : r.registry.overrides = []

namespace Linked

variable {as : List Arrival} {r r' : Run} {ws : List Wake} {w : Wake} {busy : Option DocletId}
  {id : DocletId} {placeholder : Value}

/-- The journal does not count. -/
theorem note (h : Linked as r ws busy) (n : Notice) : Linked as (r.note n) ws busy :=
  { h with }

/-- The tables are empty when a run begins. -/
theorem begin (r : Run) : Linked [] r.begin [] none where
  nodup := List.nodup_nil
  arrived _ hbusy := nomatch hbusy
  size _ ha := nomatch ha
  longname _ ha := nomatch ha
  pending _ ha := nomatch ha
  awaited _ ha := nomatch ha
  agenda _ hw := nomatch hw
  free _ hk := nomatch hk
  listed _ := ⟨List.nodup_nil, fun _ hx => nomatch hx⟩
  finished _ ha := nomatch ha
  completed _ _ hx := nomatch hx
  waiting _ _ hx := nomatch hx
  found _ ha := nomatch ha
  overrides := rfl

theorem not_mem_waiters (h : Linked as r ws busy) {k : Text}
    (hk : r.registry.completed.contains k = true) : r.registry.waiters k = [] := by
  have hfree := h.free k hk
  rw [Table.contains, Option.isSome_eq_false_iff, Option.isNone_iff_eq_none] at hfree
  rw [Registry.waiters, hfree]
  rfl

/-- When the front of an agenda is taken up, its doclet is busy. -/
theorem takeUp (h : Linked as r (w :: ws) none) : Linked as r ws (some w.waiter) :=
  { h with
    arrived := by
      intro x hx
      rw [← Option.some.inj hx]
      exact (h.agenda w List.mem_cons_self).2
    awaited := by
      intro a ha hne e he
      rcases h.awaited a ha (by simp) e he with hw | hw
      · exact Or.inl hw
      · rcases List.mem_cons.mp hw with rfl | hw
        · exact absurd rfl hne
        · exact Or.inr hw
    agenda := fun w' hw' => h.agenda w' (List.mem_cons_of_mem w hw')
    finished := fun a ha _ => h.finished a ha (by simp)
    waiting := fun n id hget =>
      ⟨(h.waiting n id hget).1, (h.waiting n id hget).2.1, (h.waiting n id hget).2.2.1,
        fun _ => (h.waiting n id hget).2.2.2 (by simp)⟩
    found := fun a ha _ => h.found a ha (by simp) }

/-! ### Arriving -/

/-- Only the doclets that have arrived and the tables of completion count. -/
theorem congr (h : Linked as r ws busy) (hsize : r'.doclets.size = r.doclets.size)
    (hdoclet : ∀ x ∈ as.map Arrival.id, r'.doclet x = r.doclet x)
    (hcompleted : r'.registry.completed = r.registry.completed)
    (hwaitingFor : r'.registry.waitingFor = r.registry.waitingFor)
    (hwaiting : r'.registry.waiting = r.registry.waiting)
    (hoverrides : r'.registry.overrides = []) : Linked as r' ws busy := by
  have hself : ∀ a ∈ as, r'.doclet a.id = r.doclet a.id := fun a ha =>
    hdoclet a.id (List.mem_map_of_mem ha)
  have hwaiters : ∀ k, r'.registry.waiters k = r.registry.waiters k := fun k => by
    rw [Registry.waiters, hwaitingFor, Registry.waiters]
  have hfind : ∀ n, r'.registry.find? n = r.registry.find? n := fun n => by
    rw [Registry.find?, hcompleted, hwaiting, Registry.find?]
  constructor
  case nodup => exact h.nodup
  case arrived => exact h.arrived
  case size => rw [hsize]; exact h.size
  case longname => intro a ha; rw [hself a ha]; exact h.longname a ha
  case pending => intro a ha; rw [hself a ha, hcompleted]; exact h.pending a ha
  case awaited =>
    intro a ha hbusy e he
    rw [hself a ha] at he
    rw [hwaiters]
    exact h.awaited a ha hbusy e he
  case agenda => rw [hcompleted]; exact h.agenda
  case free => rw [hcompleted, hwaitingFor]; exact h.free
  case listed =>
    intro k
    rw [hwaiters]
    refine ⟨(h.listed k).1, fun x hx => ?_⟩
    have hx := (h.listed k).2 x hx
    rw [hdoclet x hx.1]
    exact hx
  case finished => intro a ha; rw [hself a ha, hcompleted]; exact h.finished a ha
  case completed =>
    intro n x hx
    rw [hcompleted] at hx
    have hx := h.completed n x hx
    rw [hdoclet x hx.2.1]
    exact hx
  case waiting =>
    intro n x hx
    rw [hwaiting] at hx
    have hx := h.waiting n x hx
    rw [hdoclet x hx.2.1]
    exact hx
  case found => intro a ha; rw [hself a ha, hfind]; exact h.found a ha
  case overrides => exact hoverrides

/-- A doclet is busy when it arrives. -/
theorem add (h : Linked as r ws none) (hid : id ∉ as.map Arrival.id)
    (hsize : id < r.doclets.size) : Linked (as ++ [⟨id, r.doclet id⟩]) r ws (some id) := by
  have hmap : (as ++ [(⟨id, r.doclet id⟩ : Arrival)]).map Arrival.id =
      as.map Arrival.id ++ [id] := by
    rw [List.map_append]
    rfl
  have harrived : ∀ x ∈ as.map Arrival.id,
      x ∈ (as ++ [(⟨id, r.doclet id⟩ : Arrival)]).map Arrival.id := fun x hx => by
    rw [hmap]; exact List.mem_append_left _ hx
  -- the clauses that excuse a busy doclet say nothing about the new one
  have hold : ∀ a ∈ as ++ [⟨id, r.doclet id⟩], some a.id ≠ some id → a ∈ as := fun a ha hbusy => by
    rcases List.mem_append.mp ha with ha | ha
    · exact ha
    · exact absurd (by rw [List.mem_singleton.mp ha]) hbusy
  constructor
  case nodup =>
    rw [hmap, List.nodup_append]
    refine ⟨h.nodup, List.nodup_singleton id, ?_⟩
    rintro x hx y hy rfl
    exact hid (List.mem_singleton.mp hy ▸ hx)
  case arrived =>
    intro x hx
    rw [← Option.some.inj hx, hmap]
    exact List.mem_append_right _ (List.mem_singleton.mpr rfl)
  case size =>
    intro a ha
    rcases List.mem_append.mp ha with ha | ha
    · exact h.size a ha
    · rw [List.mem_singleton.mp ha]; exact hsize
  case longname =>
    intro a ha
    rcases List.mem_append.mp ha with ha | ha
    · exact h.longname a ha
    · rw [List.mem_singleton.mp ha]
  case pending =>
    intro a ha
    rcases List.mem_append.mp ha with ha | ha
    · exact h.pending a ha
    · rw [List.mem_singleton.mp ha]
      exact ⟨fun _ => false, by simp, by simp⟩
  case awaited => exact fun a ha hbusy => h.awaited a (hold a ha hbusy) (by simp)
  case agenda => exact fun w hw => ⟨(h.agenda w hw).1, harrived _ (h.agenda w hw).2⟩
  case free => exact h.free
  case listed =>
    intro k
    refine ⟨(h.listed k).1, fun x hx => ?_⟩
    exact ⟨harrived x ((h.listed k).2 x hx).1, ((h.listed k).2 x hx).2⟩
  case finished => exact fun a ha hbusy => h.finished a (hold a ha hbusy) (by simp)
  case completed =>
    intro n x hx
    obtain ⟨hn, hx, hrest⟩ := h.completed n x hx
    exact ⟨hn, harrived x hx, hrest⟩
  case waiting =>
    intro n x hx
    obtain ⟨hn, hx, hname, hpending⟩ := h.waiting n x hx
    exact ⟨hn, harrived x hx, hname, fun _ => hpending (by simp)⟩
  case found => exact fun a ha hbusy => h.found a (hold a ha hbusy) (by simp)
  case overrides => exact h.overrides

/-- A doclet that has declared its ancestors is busy. -/
theorem declare {settings : Settings} (h : Linked as r [] none) (hid : id ∉ as.map Arrival.id)
    (hsize : id < r.doclets.size) (hdeclared : r.declareAncestors settings id = (r', none)) :
    Linked (as ++ [⟨id, r'.doclet id⟩]) r' [] (some id) := by
  have hdeclares : Run.Declares id r r' := Run.declares_of_declareAncestors hdeclared
  have hoverrides : (r.declareAncestors settings id).1.registry.overrides = [] :=
    Run.overrides_declareAncestors h.overrides
  rw [hdeclared] at hoverrides
  have h' : Linked as r' [] none :=
    h.congr hdeclares.size (fun x hx => hdeclares.doclet_of_ne x fun heq => hid (heq ▸ hx))
      hdeclares.completed hdeclares.waitingFor hdeclares.waiting hoverrides
  exact h'.add hid (by rw [hdeclares.size]; exact hsize)

/-! ### A pass over the busy doclet -/

/-- A pass over the busy doclet keeps the links, and lists it wherever it still waits. -/
theorem pass (h : Linked as r ws (some id)) : Linked as (r.pass placeholder id) ws (some id) := by
  have hother : ∀ x, x ≠ id → (r.pass placeholder id).doclet x = r.doclet x :=
    fun _ => Run.doclet_pass_of_ne
  -- the doclet is parked under what it still waits for
  generalize hks :
    ((Run.stillPending r.registry (r.doclet id).pending).map PendingAncestor.identity).reverse = ks
  have hregistry : (r.pass placeholder id).registry =
      r.registry.parkAll id (r.doclet id).longname ks := by rw [Run.registry_pass, hks]
  have hmem : ∀ k, k ∈ ks ↔ ∃ e ∈ ((r.pass placeholder id).doclet id).pending, e.identity = k :=
    fun k => by rw [← hks, List.mem_reverse, List.mem_map, Run.pending_pass]
  constructor
  case nodup => exact h.nodup
  case arrived => exact h.arrived
  case size =>
    rw [Run.size_pass]
    exact h.size
  case longname =>
    intro a ha
    rw [Run.longname_pass]
    exact h.longname a ha
  case pending =>
    intro a ha
    rw [Run.completed_pass]
    obtain ⟨gone, hgone, heq⟩ := h.pending a ha
    by_cases hx : a.id = id
    · -- what is gone now is what was gone before and what the pass has merged
      subst hx
      refine ⟨fun k => gone k || r.registry.completed.contains k, fun k hk => ?_, ?_⟩
      · rcases Bool.or_eq_true _ _ ▸ hk with hk | hk
        · exact hgone k hk
        · exact hk
      · rw [Run.pending_pass, heq, Run.stillPending, List.filter_filter]
        apply List.filter_congr
        intro e _
        rw [Bool.not_or, Bool.and_comm]
    · rw [hother _ hx]
      exact ⟨gone, hgone, heq⟩
  case awaited =>
    intro a ha hbusy e he
    have hx : a.id ≠ id := fun heq => hbusy (congrArg some heq)
    rw [hother _ hx] at he
    refine (h.awaited a ha hbusy e he).imp_left fun hw => ?_
    rw [hregistry, Registry.waiters_parkAll]
    split
    · exact Registry.mem_addOnce.mpr (Or.inl hw)
    · exact hw
  case agenda =>
    rw [Run.completed_pass]
    exact h.agenda
  case free =>
    -- the doclet is parked only under names that are not complete
    intro k hk
    rw [Run.completed_pass] at hk
    rw [hregistry, Registry.contains_waitingFor_parkAll, h.free k hk, Bool.or_false,
      decide_eq_false_iff_not, hmem]
    rintro ⟨e, he, rfl⟩
    have hopen := (Run.mem_pending_pass_self.mp he).2
    rw [hk] at hopen
    cases hopen
  case listed =>
    intro k
    rw [hregistry, Registry.waiters_parkAll]
    obtain ⟨hnodup, hlisted⟩ := h.listed k
    -- who was listed under a name still waits for it, since the name is not complete
    have hold : ∀ x ∈ r.registry.waiters k, x ∈ as.map Arrival.id ∧
        ∃ e ∈ ((r.pass placeholder id).doclet x).pending, e.identity = k := fun x hx => by
      obtain ⟨harrived, e, he, rfl⟩ := hlisted x hx
      refine ⟨harrived, e, ?_, rfl⟩
      by_cases hxid : x = id
      · subst hxid
        refine Run.mem_pending_pass_self.mpr ⟨he, ?_⟩
        by_contra hcompleted
        rw [Bool.not_eq_false] at hcompleted
        rw [h.not_mem_waiters hcompleted] at hx
        cases hx
      · rw [hother x hxid]
        exact he
    split
    · next hk =>
      refine ⟨Registry.nodup_addOnce hnodup, fun x hx => ?_⟩
      rcases Registry.mem_addOnce.mp hx with hx | rfl
      · exact hold x hx
      · exact ⟨h.arrived x rfl, (hmem k).mp hk⟩
    · exact ⟨hnodup, hold⟩
  case finished =>
    intro a ha hbusy
    have hx : a.id ≠ id := fun heq => hbusy (congrArg some heq)
    rw [hother _ hx, Run.completed_pass]
    exact h.finished a ha hbusy
  case completed =>
    intro n x hx
    rw [Run.completed_pass] at hx
    obtain ⟨hn, harrived, hlong, hnil⟩ := h.completed n x hx
    refine ⟨hn, harrived, by rw [Run.longname_pass, hlong], ?_⟩
    rw [List.eq_nil_iff_forall_not_mem] at hnil ⊢
    exact fun e he => hnil e (Run.mem_pending_of_pass he)
  case waiting =>
    intro n x hx
    rw [hregistry, Registry.get?_waiting_parkAll] at hx
    rw [Run.longname_pass]
    split at hx
    · next hpark =>
      cases hx
      exact ⟨hpark.2.2 ▸ hpark.2.1, h.arrived id rfl, hpark.2.2, fun hbusy => absurd rfl hbusy⟩
    · obtain ⟨hn, harrived, hlong, hne⟩ := h.waiting n x hx
      refine ⟨hn, harrived, hlong, fun hbusy => ?_⟩
      rw [hother x fun heq => hbusy (congrArg some heq)]
      exact hne hbusy
  case found =>
    intro a ha hbusy hlong
    rw [Run.longname_pass] at hlong ⊢
    have hfound := h.found a ha hbusy hlong
    rw [Registry.find?, Run.completed_pass, hregistry, Registry.get?_waiting_parkAll]
    split
    · simp
    · exact hfound
  case overrides =>
    rw [hregistry, Registry.overrides_parkAll]
    exact h.overrides

/-- After a pass the busy doclet is listed wherever it still waits. -/
theorem mem_waiters_pass {e : PendingAncestor}
    (he : e ∈ ((r.pass placeholder id).doclet id).pending) :
    id ∈ (r.pass placeholder id).registry.waiters e.identity := by
  rw [Run.pending_pass] at he
  rw [Run.registry_pass, Registry.waiters_parkAll, if_pos]
  · exact Registry.mem_addOnce.mpr (Or.inr rfl)
  · exact List.mem_reverse.mpr (List.mem_map_of_mem he)

/-- After a pass the busy doclet is found by its name if it still waits. -/
theorem get?_waiting_pass (hne : ((r.pass placeholder id).doclet id).pending ≠ [])
    (hlong : (r.doclet id).longname ≠ []) :
    (r.pass placeholder id).registry.waiting.get? (r.doclet id).longname = some id := by
  rw [Run.pending_pass] at hne
  rw [Run.registry_pass, Registry.get?_waiting_parkAll, if_pos]
  exact ⟨by simpa using hne, hlong, rfl⟩

/-! ### Completing the busy doclet -/

/-- When the busy doclet completes under its name, whoever waited for the name is set free and
stands on the agenda. -/
theorem settle (h : Linked as r ws (some id)) (hnil : (r.doclet id).pending = []) {n : Text}
    (hname : (r.doclet id).longname = n) (hn : n ≠ []) :
    Linked as { r with registry := r.registry.settle id n }
      ((r.registry.waiters n).map (⟨·, n⟩) ++ ws) (some id) := by
  have hmono : ∀ k, r.registry.completed.contains k = true →
      (r.registry.settle id n).completed.contains k = true := fun k hk => by
    rw [Registry.contains_completed_settle, hk, Bool.or_true]
  constructor
  case nodup => exact h.nodup
  case arrived => exact h.arrived
  case size => exact h.size
  case longname => exact h.longname
  case pending =>
    intro a ha
    obtain ⟨gone, hgone, heq⟩ := h.pending a ha
    exact ⟨gone, fun k hk => hmono k (hgone k hk), heq⟩
  case awaited =>
    intro a ha hbusy e he
    rcases h.awaited a ha hbusy e he with hw | hw
    · by_cases hk : n = e.identity
      · -- whoever is no longer listed is on the agenda instead
        subst hk
        exact Or.inr (List.mem_append_left _ (List.mem_map_of_mem hw))
      · refine Or.inl ?_
        rw [Registry.waiters_settle, if_neg hk]
        exact hw
    · exact Or.inr (List.mem_append_right _ hw)
  case agenda =>
    intro w hw
    rcases List.mem_append.mp hw with hw | hw
    · obtain ⟨x, hx, rfl⟩ := List.mem_map.mp hw
      refine ⟨?_, ((h.listed n).2 x hx).1⟩
      rw [Registry.contains_completed_settle, decide_eq_true rfl, Bool.true_or]
    · exact ⟨hmono _ (h.agenda w hw).1, (h.agenda w hw).2⟩
  case free =>
    intro k hk
    rw [Registry.contains_completed_settle] at hk
    rw [Registry.contains_waitingFor_settle]
    rcases Bool.or_eq_true _ _ ▸ hk with hk | hk
    · rw [hk]; rfl
    · rw [h.free k hk, Bool.and_false]
  case listed =>
    intro k
    rw [Registry.waiters_settle]
    split
    · exact ⟨List.nodup_nil, fun x hx => by cases hx⟩
    · exact h.listed k
  case finished => exact fun a ha hbusy hnil' hne => hmono _ (h.finished a ha hbusy hnil' hne)
  case completed =>
    intro k x hx
    rw [Registry.get?_completed_settle] at hx
    split at hx
    · next hk =>
      cases hx
      exact ⟨hk ▸ hn, h.arrived _ rfl, hname.trans hk, hnil⟩
    · exact h.completed k x hx
  case waiting =>
    intro k x hx
    rw [Registry.get?_waiting_settle] at hx
    split at hx
    · cases hx
    · exact h.waiting k x hx
  case found =>
    exact fun a ha hbusy hne => Registry.isSome_find?_settle (h.found a ha hbusy hne)
  case overrides => exact h.overrides

/-- The busy doclet is at rest when it is listed wherever it waits, or complete. -/
theorem rest (h : Linked as r ws (some id))
    (hawaited : ∀ e ∈ (r.doclet id).pending, id ∈ r.registry.waiters e.identity)
    (hfinished : (r.doclet id).pending = [] → (r.doclet id).longname ≠ [] →
      r.registry.completed.contains (r.doclet id).longname = true)
    (hwaiting : ∀ n, r.registry.waiting.get? n = some id → (r.doclet id).pending ≠ [])
    (hfound : (r.doclet id).longname ≠ [] →
      (r.registry.find? (r.doclet id).longname).isSome = true) : Linked as r ws none := by
  have hcases : ∀ x, x = id ∨ some x ≠ some id := fun x =>
    or_iff_not_imp_left.mpr fun hx heq => hx (Option.some.inj heq)
  exact { h with
    arrived := fun _ hbusy => nomatch hbusy
    awaited := by
      intro a ha _ e he
      rcases hcases a.id with hx | hx
      · rw [hx] at he ⊢; exact Or.inl (hawaited e he)
      · exact h.awaited a ha hx e he
    finished := by
      intro a ha _
      rcases hcases a.id with hx | hx
      · rw [hx]; exact hfinished
      · exact h.finished a ha hx
    waiting := by
      intro n x hx
      obtain ⟨hn, harrived, hlong, hpending⟩ := h.waiting n x hx
      refine ⟨hn, harrived, hlong, fun _ => ?_⟩
      rcases hcases x with hxid | hxid
      · subst hxid; exact hwaiting n hx
      · exact hpending hxid
    found := by
      intro a ha _
      rcases hcases a.id with hx | hx
      · rw [hx]; exact hfound
      · exact h.found a ha hx }

/-- The busy doclet is at rest after a pass that leaves something pending on it. -/
theorem rest_pass (h : Linked as r ws (some id))
    (hne : ((r.pass placeholder id).doclet id).pending ≠ []) :
    Linked as (r.pass placeholder id) ws none := by
  refine h.pass.rest (fun e he => mem_waiters_pass he) (fun hnil => absurd hnil hne)
    (fun _ _ => hne) fun hlong => ?_
  rw [Run.longname_pass] at hlong ⊢
  rw [Registry.find?, get?_waiting_pass hne hlong]
  cases (r.pass placeholder id).registry.completed.get? (r.doclet id).longname <;> rfl

/-- A busy doclet without a name is at rest as soon as it waits for nothing. -/
theorem rest_of_anonymous (h : Linked as r ws (some id)) (hnil : (r.doclet id).pending = [])
    (hlong : (r.doclet id).longname = []) : Linked as r ws none := by
  refine h.rest ?_ ?_ ?_ ?_
  · intro e he
    rw [hnil] at he
    cases he
  · exact fun _ hne => absurd hlong hne
  · intro n hn
    obtain ⟨hne, -, hname, -⟩ := h.waiting n id hn
    exact absurd (hname.symm.trans hlong) hne
  · exact fun hne => absurd hlong hne

/-- A busy doclet with a name is at rest when it is complete under it. -/
theorem rest_settle (h : Linked as r ws (some id)) (hnil : (r.doclet id).pending = [])
    (hlong : (r.doclet id).longname ≠ []) :
    Linked as { r with registry := r.registry.settle id (r.doclet id).longname }
      ((r.registry.waiters (r.doclet id).longname).map (⟨·, (r.doclet id).longname⟩) ++ ws)
      none := by
  have hdone : (r.registry.settle id (r.doclet id).longname).completed.contains
      (r.doclet id).longname = true := by
    rw [Registry.contains_completed_settle, decide_eq_true rfl, Bool.true_or]
  refine (h.settle hnil rfl hlong).rest ?_ ?_ ?_ ?_
  · intro e he
    have he : e ∈ (r.doclet id).pending := he
    rw [hnil] at he
    cases he
  · exact fun _ _ => hdone
  · -- under its own name it is no longer entered as waiting, and it goes by no other
    intro n hn
    rw [Registry.get?_waiting_settle] at hn
    split at hn
    · cases hn
    · next hother =>
      obtain ⟨-, -, hname, -⟩ := h.waiting n id hn
      exact absurd ⟨hname, hname ▸ hn⟩ hother
  · exact fun _ => Registry.isSome_find?_of_completed hdone

/-- A pass over the busy doclet, and its completion if it waits for nothing more, leave no doclet
busy. -/
theorem advance (h : Linked as r ws (some id)) :
    Linked as (r.advance placeholder id).1 ((r.advance placeholder id).2 ++ ws) none := by
  by_cases hrest : Run.stillPending r.registry (r.doclet id).pending = []
  case neg =>
    rw [Run.advance_of_ne_nil hrest]
    exact h.rest_pass (by rw [Run.pending_pass]; exact hrest)
  case pos =>
    have hpass : Linked as (r.pass placeholder id) ws (some id) := h.pass
    have hnil : ((r.pass placeholder id).doclet id).pending = [] := by
      rw [Run.pending_pass]
      exact hrest
    rw [(Run.advance_of_eq_nil hrest).1]
    unfold Run.settle
    dsimp only
    split
    · next hlong => exact (hpass.rest_of_anonymous hnil hlong).note _
    · next hlong => exact (hpass.rest_settle hnil hlong).note _

/-! ### Without an agenda -/

/-- Without an agenda a doclet waits for exactly those of its ancestors that are not complete. -/
theorem pending_eq (h : Linked as r [] none) {a : Arrival} (ha : a ∈ as) : (r.doclet a.id).pending =
    a.declared.pending.filter fun e => !r.registry.completed.contains e.identity := by
  obtain ⟨gone, hgone, hpending⟩ := h.pending a ha
  rw [hpending]
  apply List.filter_congr
  intro e he
  cases hg : gone e.identity with
  | true => rw [hgone _ hg]
  | false =>
    have he : e ∈ (r.doclet a.id).pending := by
      rw [hpending, List.mem_filter, hg]
      exact ⟨he, rfl⟩
    -- what is still pending is listed, and nothing is listed under a name that is complete
    rcases h.awaited a ha (by simp) e he with hlisted | hagenda
    · cases hc : r.registry.completed.contains e.identity with
      | true =>
        rw [h.not_mem_waiters hc] at hlisted
        cases hlisted
      | false => rfl
    · cases hagenda

/-- Without an agenda a doclet waits for nothing exactly if all its ancestors are complete. -/
theorem pending_eq_nil_iff (h : Linked as r [] none) {a : Arrival} (ha : a ∈ as) :
    (r.doclet a.id).pending = [] ↔
      ∀ e ∈ a.declared.pending, r.registry.completed.contains e.identity = true := by
  rw [h.pending_eq ha, List.filter_eq_nil_iff]
  simp only [Bool.not_eq_true', Bool.not_eq_false]

end Linked

namespace Execution

variable {settings : Settings} {r₀ r : Run} {as : List Arrival} {ps : List Pass}
  {ws : List Wake} {busy : Option DocletId}

/-- At every step of a run the doclets, the tables and the agenda agree. -/
theorem linked (h : Execution settings r₀ as ps r ws busy) : Linked as r ws busy := by
  induction h with
  | begin => exact .begin r₀
  | declare _ hid hsize _ hdeclared ih => exact ih.declare hid hsize hdeclared
  | takeUp _ ih => exact ih.takeUp.note _
  | advance _ ih => exact ih.advance

/-- A doclet is not touched before it arrives. -/
theorem doclet_of_not_arrived (h : Execution settings r₀ as ps r ws busy) {id : DocletId}
    (hid : id ∉ as.map Arrival.id) : r.doclet id = r₀.doclet id := by
  induction h with
  | begin => rfl
  | @declare _ _ r r' x _ _ _ _ hdeclared ih =>
    rw [List.map_append, List.mem_append, not_or] at hid
    have hne : id ≠ x := fun heq => hid.2 (by rw [heq]; exact List.mem_singleton.mpr rfl)
    rw [(Run.declares_of_declareAncestors hdeclared).doclet_of_ne id hne]
    exact ih hid.1
  | takeUp _ ih => exact ih hid
  | @advance _ _ r _ x h ih =>
    have hne : id ≠ x := fun heq => hid (heq ▸ h.linked.arrived x rfl)
    rw [Run.doclet_advance, Run.doclet_pass_of_ne hne]
    exact ih hid

/-- A doclet was fresh when it arrived, and had then recorded its declarations and nothing else. -/
theorem declares (h : Execution settings r₀ as ps r ws busy) :
    ∀ a ∈ as, (r₀.doclet a.id).IsFresh ∧
      (r₀.doclet a.id).Declares a.declared a.declared.pending := by
  induction h with
  | begin => exact fun a ha => nomatch ha
  | @declare _ _ _ r' id h hid _ hfresh hdeclared ih =>
    intro a ha
    rcases List.mem_append.mp ha with ha | ha
    · exact ih a ha
    · rw [h.doclet_of_not_arrived hid] at hfresh
      obtain ⟨entries, hentries⟩ := (Run.declares_of_declareAncestors hdeclared).doclet_self
      rw [h.doclet_of_not_arrived hid] at hentries
      have hpending : (r'.doclet id).pending = entries := by
        rw [hentries.pending, hfresh.pending, List.nil_append]
      rw [List.mem_singleton.mp ha]
      exact ⟨hfresh, hpending ▸ hentries⟩
  | takeUp _ ih => exact ih
  | advance _ ih => exact ih

/-- No doclet is added or removed in a run. -/
theorem size_eq (h : Execution settings r₀ as ps r ws busy) :
    r.doclets.size = r₀.doclets.size := by
  induction h with
  | begin => rfl
  | declare _ _ _ _ hdeclared ih =>
    rw [(Run.declares_of_declareAncestors hdeclared).size, ih]
  | takeUp _ ih => exact ih
  | advance _ ih => rw [Run.size_advance, ih]

end Execution

end DocLineage
