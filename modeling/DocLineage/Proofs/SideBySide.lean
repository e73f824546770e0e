import DocLineage.Proofs.Mirror

/-!
# Two runs side by side

A run that mirrors two others at once, each with the doclets of the other one beside it. It takes
the doclets of both in some order that keeps the order of each, and takes one step whenever one of
the two does: the other one does not notice. In the end it shows what either of them shows at its
end, and has kept the records of both.

## Main definitions

* `Interleaving` — two lists put together so that each of them keeps its order
* `Mirror.Beside` — a run that mirrors two others
* `Resolution.Refers` — the names that the doclets of a list refer to when they are resolved
* `Resolution.Joint` — a run over a list, up to some place, beside two others

## Main results

* `Mirror.Beside.lockstep` — one of the two takes its steps, and the other one does not notice
* `Resolution.joint_of_interleaving` — all the doclets of two lists are taken in turn
-/

namespace DocLineage

/-- Two lists put together so that each of them keeps its order. -/
inductive Interleaving {α : Type} : List α → List α → List α → Prop
  | nil : Interleaving [] [] []
  | left {xs ys zs : List α} (x : α) :
      Interleaving xs ys zs → Interleaving (xs ++ [x]) ys (zs ++ [x])
  | right {xs ys zs : List α} (y : α) :
      Interleaving xs ys zs → Interleaving xs (ys ++ [y]) (zs ++ [y])

namespace Interleaving

variable {α : Type} {xs ys zs : List α}

theorem symm (h : Interleaving xs ys zs) : Interleaving ys xs zs := by
  induction h with
  | nil => exact .nil
  | left x _ ih => exact .right x ih
  | right y _ ih => exact .left y ih

theorem append_left (h : Interleaving xs ys zs) (l : List α) :
    Interleaving (xs ++ l) ys (zs ++ l) := by
  induction l generalizing xs zs with
  | nil =>
    rw [List.append_nil, List.append_nil]
    exact h
  | cons x l ih =>
    rw [List.append_cons xs, List.append_cons zs]
    exact ih (h.left x)

/-- Nothing is lost and nothing is added. -/
theorem perm (h : Interleaving xs ys zs) : zs.Perm (xs ++ ys) := by
  induction h with
  | nil => exact .refl _
  | @left xs ys zs x _ ih =>
    have hlast : (ys ++ [x]).Perm ([x] ++ ys) := List.perm_append_comm
    rw [List.append_assoc]
    refine (ih.append_right [x]).trans ?_
    rw [List.append_assoc]
    exact hlast.append_left xs
  | right y _ ih =>
    rw [← List.append_assoc]
    exact ih.append_right [y]

/-- The last of the places that some numbers have is that of the last number. -/
theorem exists_of_map_range {f : Nat → Nat} {m x : Nat} {xs : List Nat}
    (h : (List.range m).map f = xs ++ [x]) :
    ∃ m', m = m' + 1 ∧ (List.range m').map f = xs ∧ f m' = x := by
  cases m with
  | zero => exact absurd h.symm (List.append_ne_nil_of_right_ne_nil _ (List.cons_ne_nil _ _))
  | succ m =>
    rw [List.range_succ, List.map_append] at h
    obtain ⟨hxs, hx⟩ := List.append_inj' h rfl
    exact ⟨m, rfl, hxs, (List.cons.inj hx).1⟩

/-- Whatever holds at the beginning, and is kept when the next place is taken by either side, holds
when all places are taken. -/
theorem induction_places {f g : Nat → Nat} {P : Nat → Nat → Nat → Prop} {m n k : Nat}
    (h : Interleaving ((List.range m).map f) ((List.range n).map g) (List.range k))
    (zero : P 0 0 0) (left : ∀ m n, P m n (f m) → P (m + 1) n (f m + 1))
    (right : ∀ m n, P m n (g n) → P m (n + 1) (g n + 1)) : P m n k := by
  generalize hxs : (List.range m).map f = xs at h
  generalize hys : (List.range n).map g = ys at h
  generalize hzs : List.range k = zs at h
  rw [← List.map_id' (List.range k)] at hzs
  induction h generalizing m n k with
  | nil =>
    have hm : m = 0 := by simpa using hxs
    have hn : n = 0 := by simpa using hys
    have hk : k = 0 := by simpa using hzs
    rw [hm, hn, hk]
    exact zero
  | left x _ ih =>
    obtain ⟨m, rfl, hxs', rfl⟩ := exists_of_map_range hxs
    obtain ⟨k, rfl, hzs', rfl⟩ := exists_of_map_range hzs
    exact left m n (ih hxs' hys hzs')
  | right y _ ih =>
    obtain ⟨n, rfl, hys', rfl⟩ := exists_of_map_range hys
    obtain ⟨k, rfl, hzs', rfl⟩ := exists_of_map_range hzs
    exact right m n (ih hxs hys' hzs')

end Interleaving

/-! ### Records -/

namespace Run

variable {settings : Settings} {placeholder : Value} {r : Run} {id : DocletId}

/-- What a run keeps a record of. -/
def records (r : Run) : List DroppedOverride × List IgnoredTag := (r.dropped, r.ignored)

theorem records_visit (e : PendingAncestor) : (r.visit placeholder id e).records = r.records := by
  unfold visit
  split <;> rfl

theorem records_pass : (r.pass placeholder id).records = r.records := by
  rw [pass_eq]
  change ((r.doclet id).pending.reverse.foldl (visit placeholder id) r).records = r.records
  generalize (r.doclet id).pending.reverse = entries
  induction entries generalizing r with
  | nil => rfl
  | cons e es ih => rw [List.foldl_cons, ih, records_visit]

theorem records_settle : (r.settle id).1.records = r.records := by
  unfold settle
  dsimp only
  split <;> rfl

theorem records_advance : (r.advance placeholder id).1.records = r.records := by
  unfold advance
  dsimp only
  split
  · rw [records_settle, records_pass]
  · exact records_pass

theorem records_cascade (ws : List Wake) : (r.cascade placeholder ws).records = r.records := by
  induction r, ws using Run.cascade.induct placeholder with
  | case1 r => rw [cascade]
  | case2 r w ws ih =>
    rw [cascade, ih]
    exact records_advance

/-- An arrival keeps a record of what is dropped and ignored of the doclet that arrives, whatever it
sets off. -/
theorem records_feed (hid : id < r.doclets.size) (h : r.registry.overrides = [])
    (hnone : (r.feed settings id).2 = none) :
    (r.feed settings id).1.dropped = r.dropped ++ r.droppedOf settings id ∧
      (r.feed settings id).1.ignored =
        r.ignored ++ (InheritTag.dictionary settings.titles).ignored (r.doclet id) := by
  obtain ⟨hchanges, -⟩ := changes_declareAncestors settings hid h
  have hrecords : (r.feed settings id).1.records =
      (r.declareAncestors settings id).1.records := by
    rw [feed_eq, declareAncestors_of_feed hnone]
    dsimp only
    unfold process
    dsimp only
    rw [records_cascade, records_advance]
  obtain ⟨hdropped, hignored⟩ := Prod.ext_iff.mp hrecords
  exact ⟨hdropped.trans hchanges.dropped, hignored.trans hchanges.ignored⟩

end Run

/-! ### Beside another run -/

namespace Mirror

variable {settings : Settings}

/-- The third run mirrors the other two, and what is foreign to each of them are the names of the
other one. -/
structure Beside (c c' : Mirror settings) (r₁ r₂ r : Run) : Prop where
  left : c.Holds r₁ r
  right : c'.Holds r₂ r
  apart : ∀ x < r₁.doclets.size, ∀ y < r₂.doclets.size, c.place x ≠ c'.place y
  foreign_right : ∀ n, c.Own n → c'.Foreign n
  foreign_left : ∀ n, c'.Own n → c.Foreign n

namespace Beside

variable {c c' : Mirror settings} {r₁ r₂ r s : Run} {id : DocletId} {as as' : List Arrival}

theorem symm (h : Beside c c' r₁ r₂ r) : Beside c' c r₂ r₁ r where
  left := h.right
  right := h.left
  apart x hx y hy heq := h.apart y hy x hx heq.symm
  foreign_right := h.foreign_left
  foreign_left := h.foreign_right

/-- When a doclet on the left declares its ancestors, the doclets on the right do not notice. -/
theorem declare (h : Beside c c' r₁ r₂ r) (hl : Linked as r₁ [] none)
    (hid : id < r₁.doclets.size) (hoverrides : r.registry.overrides = [])
    (hclass : (r₁.doclet id).overriding settings (r₁.doclet id).tags ≠ none →
      ∀ n, (r₁.doclet id).memberof = some n → ¬c.Foreign n)
    (hasks : ∀ e ∈ ((r₁.declareAncestors settings id).1.doclet id).pending,
      ¬c.Foreign e.identity) :
    Beside c c' (r₁.declareAncestors settings id).1 r₂
        (r.declareAncestors settings (c.place id)).1 ∧
      (r.declareAncestors settings (c.place id)).2 = (r₁.declareAncestors settings id).2 ∧
      r.droppedOf settings (c.place id) = r₁.droppedOf settings id ∧
      (InheritTag.dictionary settings.titles).ignored (r.doclet (c.place id)) =
        (InheritTag.dictionary settings.titles).ignored (r₁.doclet id) := by
  obtain ⟨hleft, hrest⟩ := h.left.declare hl hid hoverrides hclass hasks
  have hright : c'.Holds r₂ (r.declareAncestors settings (c.place id)).1 := by
    refine h.right.declare_beside fun y hy heq => ?_
    exact h.apart id hid y hy heq.symm
  have hdeclares : Run.Declares id r₁ (r₁.declareAncestors settings id).1 :=
    Run.declares_declareAncestors
  refine ⟨⟨hleft, hright, ?_, h.foreign_right, h.foreign_left⟩, hrest⟩
  rw [hdeclares.size]
  exact h.apart

/-- The run on the left takes its steps, and the one on the right does not notice. -/
theorem lockstep (c c' : Mirror settings) (r₂ : Run) :
    Lockstep settings c.place fun r₁ r => Beside c c' r₁ r₂ r where
  note notice notice' h :=
    { h with left := h.left.note notice notice', right := { h.right with } }
  advance {r r'} _ _ _ _ id h hl hl' := by
    have hid : id < r.doclets.size := hl.lt_size (hl.arrived id rfl)
    obtain ⟨hleft, hwakes⟩ := h.left.advance hl hl'
    have hright : c'.Holds r₂ (r'.advance settings.placeholder (c.place id)).1 := by
      refine h.right.advance_beside ?_ ?_ ?_ _
      · exact fun y hy heq => h.apart id hid y hy heq.symm
      · -- what the left side goes by is foreign on the right
        rw [h.left.longname_eq hid]
        exact fun hne => h.foreign_right _ (h.left.named id hid hne)
      · -- and the left side does not ask for what the right side goes by
        rw [h.left.pending_eq hid]
        exact fun e he hown => h.left.asks id hid e he (h.foreign_left _ hown)
    refine ⟨⟨hleft, hright, ?_, h.foreign_right, h.foreign_left⟩, hwakes,
      h.left.passOver_eq hid⟩
    rw [Run.size_advance]
    exact h.apart

/-- An arrival on the left, with all that it sets off. -/
theorem feed {r₀ r₀' : Run} {ps ps' : List Pass} (h : Beside c c' r₁ r₂ r)
    (hrun : Execution settings r₀ as ps r₁ [] none)
    (hrun' : Execution settings r₀' as' ps' r [] none) (hid : id ∉ as.map Arrival.id)
    (hid' : c.place id ∉ as'.map Arrival.id) (hsize : id < r₁.doclets.size)
    (hfresh : (r₁.doclet id).IsFresh) (hfresh' : (r.doclet (c.place id)).IsFresh)
    (hnone : (r₁.feed settings id).2 = none)
    (hclass : (r₁.doclet id).overriding settings (r₁.doclet id).tags ≠ none →
      ∀ n, (r₁.doclet id).memberof = some n → ¬c.Foreign n)
    (hasks : ∀ e ∈ ((r₁.declareAncestors settings id).1.doclet id).pending,
      ¬c.Foreign e.identity) :
    (r.feed settings (c.place id)).2 = none ∧
      Beside c c' (r₁.feed settings id).1 r₂ (r.feed settings (c.place id)).1 ∧
      (c.Alike ((r₁.declareAncestors settings id).1.doclet id)
          ((r.declareAncestors settings (c.place id)).1.doclet (c.place id)) ∧
        r.feedPasses settings (c.place id) =
          (r₁.feedPasses settings id).map (Pass.moved c.place)) ∧
      ∃ dropped ignored,
        (r₁.feed settings id).1.dropped = r₁.dropped ++ dropped ∧
        (r.feed settings (c.place id)).1.dropped = r.dropped ++ dropped ∧
        (r₁.feed settings id).1.ignored = r₁.ignored ++ ignored ∧
        (r.feed settings (c.place id)).1.ignored = r.ignored ++ ignored := by
  have hsize' := h.left.size id hsize
  have hdeclared := Run.declareAncestors_of_feed hnone
  obtain ⟨hbeside, hfault, hdropped, hignored⟩ :=
    h.declare hrun.linked hsize hrun'.linked.overrides hclass hasks
  have hnone' : (r.declareAncestors settings (c.place id)).2 = none := by
    rw [hfault, hdeclared]
  have hdeclared' : r.declareAncestors settings (c.place id) =
      ((r.declareAncestors settings (c.place id)).1, none) := Prod.ext rfl hnone'
  obtain ⟨hfeed, hafter, hpasses⟩ := (lockstep c c' r₂).feed hdeclared hdeclared' hbeside
    (hrun.declare hid hsize hfresh hdeclared).linked
    (hrun'.declare hid' hsize' hfresh' hdeclared').linked
  have hrecords := Run.records_feed hsize hrun.linked.overrides hnone
  have hrecords' := Run.records_feed hsize' hrun'.linked.overrides hfeed
  rw [hdropped, hignored] at hrecords'
  have hdeclares : Run.Declares id r₁ (r₁.declareAncestors settings id).1 :=
    Run.declares_declareAncestors
  have halike := hbeside.left.alike id (hdeclares.size ▸ hsize)
  exact ⟨hfeed, hafter, ⟨halike, hpasses⟩, _, _, hrecords.1, hrecords'.1, hrecords.2,
    hrecords'.2⟩

end Beside

/-- A run mirrors another one at the beginning if the doclets are alike. -/
theorem holds_start {c : Mirror settings} {doclets doclets' : List Doclet}
    (hfresh : ∀ d ∈ doclets, d.IsFresh)
    (hplace : ∀ id < doclets.length, c.place id < doclets'.length)
    (hinjective : ∀ x < doclets.length, ∀ y < doclets.length, c.place x = c.place y → x = y)
    (halike : ∀ id < doclets.length,
      c.Alike ((Run.start doclets).doclet id) ((Run.start doclets').doclet (c.place id)))
    (hnamed : ∀ d ∈ doclets, d.longname ≠ [] → c.Own d.longname) :
    c.Holds (Run.start doclets) (Run.start doclets') := by
  have hsize : ∀ ds : List Doclet, (Run.start ds).doclets.size = ds.length := fun _ => rfl
  constructor
  case size => exact hplace
  case injective => exact hinjective
  case alike => exact halike
  case named =>
    intro id hid
    rw [hsize] at hid
    rw [Resolution.doclet_start hid]
    exact hnamed _ (List.getElem_mem hid)
  case asks =>
    intro id hid e he
    rw [hsize] at hid
    rw [Resolution.doclet_start hid, (hfresh _ (List.getElem_mem hid)).pending] at he
    cases he
  case tables => exact ⟨fun _ _ => rfl, fun _ _ => rfl, fun _ _ => rfl⟩

end Mirror

/-! ### One place after the other -/

namespace Resolution

variable {settings : Settings}

/-- The names that the doclets of a list refer to when the list is resolved: those of the ancestors
that they declare, and those of the classes of members that override others. -/
inductive Refers (settings : Settings) (doclets : List Doclet) : Text → Prop
  | ancestor {id : DocletId} {e : PendingAncestor} :
      id ∈ documented settings doclets → e ∈ recorded settings doclets id →
      Refers settings doclets e.identity
  | enclosing {id : DocletId} {n : Text} :
      id ∈ documented settings doclets →
      ((Run.start doclets).doclet id).overriding settings
        ((Run.start doclets).doclet id).tags ≠ none →
      ((Run.start doclets).doclet id).memberof = some n → Refers settings doclets n

/-- A list of fresh doclets that is resolved without a fault and refers to nothing foreign. -/
structure Solo (c : Mirror settings) (doclets : List Doclet) : Prop where
  fresh : ∀ d ∈ doclets, d.IsFresh
  ended : (runAll settings doclets).2 = none
  refers : ∀ n, Refers settings doclets n → ¬c.Foreign n

/-- The run over a list up to some place, where doclets of two other lists have been taken in turn:
it mirrors the runs over these lists up to other places. -/
structure Joint (c c' : Mirror settings) (doclets₁ doclets₂ doclets : List Doclet)
    (m n k : Nat) : Prop where
  fault : ((Run.start doclets).feedAll settings (List.range k)).2 = none
  beside : Mirror.Beside c c' (runBefore settings doclets₁ m) (runBefore settings doclets₂ n)
    (runBefore settings doclets k)
  dropped : Interleaving (runBefore settings doclets₁ m).dropped
    (runBefore settings doclets₂ n).dropped (runBefore settings doclets k).dropped
  ignored : Interleaving (runBefore settings doclets₁ m).ignored
    (runBefore settings doclets₂ n).ignored (runBefore settings doclets k).ignored
  arrivals_left : ∀ id < m, takesPart settings doclets₁ id = true →
    c.Alike (declared settings doclets₁ id) (declared settings doclets (c.place id)) ∧
      passesAt settings doclets (c.place id) =
        (passesAt settings doclets₁ id).map (Pass.moved c.place)
  arrivals_right : ∀ id < n, takesPart settings doclets₂ id = true →
    c'.Alike (declared settings doclets₂ id) (declared settings doclets (c'.place id)) ∧
      passesAt settings doclets (c'.place id) =
        (passesAt settings doclets₂ id).map (Pass.moved c'.place)

variable {c c' : Mirror settings} {doclets doclets₁ doclets₂ : List Doclet} {m n k : Nat}

namespace Joint

theorem symm (h : Joint c c' doclets₁ doclets₂ doclets m n k) :
    Joint c' c doclets₂ doclets₁ doclets n m k where
  fault := h.fault
  beside := h.beside.symm
  dropped := h.dropped.symm
  ignored := h.ignored.symm
  arrivals_left := h.arrivals_right
  arrivals_right := h.arrivals_left

/-- What is known of the arrivals on the left is known of one more. -/
theorem arrivals_left_succ (h : Joint c c' doclets₁ doclets₂ doclets m n k)
    (hnext : takesPart settings doclets₁ m = true →
      c.Alike (declared settings doclets₁ m) (declared settings doclets (c.place m)) ∧
        passesAt settings doclets (c.place m) =
          (passesAt settings doclets₁ m).map (Pass.moved c.place)) :
    ∀ id < m + 1, takesPart settings doclets₁ id = true →
      c.Alike (declared settings doclets₁ id) (declared settings doclets (c.place id)) ∧
        passesAt settings doclets (c.place id) =
          (passesAt settings doclets₁ id).map (Pass.moved c.place) := by
  intro id hid
  rcases Nat.lt_succ_iff_lt_or_eq.mp hid with hid | rfl
  · exact h.arrivals_left id hid
  · exact hnext

/-- The next doclet on the left takes no part. -/
theorem left_of_skipped (h : Joint c c' doclets₁ doclets₂ doclets m n (c.place m))
    (hfeeds : (Run.start doclets₁).feedAll settings (List.range (m + 1)) =
      (runBefore settings doclets₁ m, none))
    (hfeeds' : (Run.start doclets).feedAll settings (List.range (c.place m + 1)) =
      (runBefore settings doclets (c.place m), none))
    (hpart : takesPart settings doclets₁ m = false) :
    Joint c c' doclets₁ doclets₂ doclets (m + 1) n (c.place m + 1) := by
  have hbefore : runBefore settings doclets₁ (m + 1) = runBefore settings doclets₁ m := by
    rw [runBefore, hfeeds]
  have hbefore' : runBefore settings doclets (c.place m + 1) =
      runBefore settings doclets (c.place m) := by
    rw [runBefore, hfeeds']
  constructor
  case fault => rw [hfeeds']
  case beside => rw [hbefore, hbefore']; exact h.beside
  case dropped => rw [hbefore, hbefore']; exact h.dropped
  case ignored => rw [hbefore, hbefore']; exact h.ignored
  case arrivals_right => exact h.arrivals_right
  case arrivals_left =>
    apply h.arrivals_left_succ
    rw [hpart]
    exact fun hfalse => absurd hfalse Bool.false_ne_true

/-- The next doclet on the left is fed to the run, as it is to the run over the list on the left. -/
theorem left_of_fed (h : Joint c c' doclets₁ doclets₂ doclets m n (c.place m))
    (hsolo : Solo c doclets₁) (hfresh : ∀ d ∈ doclets, d.IsFresh) (hm : m < doclets₁.length)
    (hk : c.place m < doclets.length)
    (hfeeds : (Run.start doclets₁).feedAll settings (List.range (m + 1)) =
      (runBefore settings doclets₁ m).feed settings m)
    (hfeeds' : (Run.start doclets).feedAll settings (List.range (c.place m + 1)) =
      (runBefore settings doclets (c.place m)).feed settings (c.place m))
    (hpart : takesPart settings doclets₁ m = true) :
    Joint c c' doclets₁ doclets₂ doclets (m + 1) n (c.place m + 1) := by
  -- both runs are ends of executions, and neither has touched the doclet
  have hrun := execution_upTo hsolo.fresh (Nat.le_of_lt hm)
    (snd_feedAll_range_of_le (Nat.le_of_lt hm) hsolo.ended)
  have hrun' := execution_upTo hfresh (Nat.le_of_lt hk) h.fault
  have hnot := not_mem_arrivals_upTo settings doclets₁ m
  have hnot' := not_mem_arrivals_upTo settings doclets (c.place m)
  have hsame := hrun.doclet_of_not_arrived hnot
  have hfreshm : ((runBefore settings doclets₁ m).doclet m).IsFresh := by
    rw [hsame, doclet_start hm]
    exact hsolo.fresh _ (List.getElem_mem hm)
  have hfreshk : ((runBefore settings doclets (c.place m)).doclet (c.place m)).IsFresh := by
    rw [hrun'.doclet_of_not_arrived hnot', doclet_start hk]
    exact hfresh _ (List.getElem_mem hk)
  have hfeed : ((runBefore settings doclets₁ m).feed settings m).2 = none := by
    rw [← hfeeds]
    exact snd_feedAll_range_of_le hm hsolo.ended
  have hdocumented : m ∈ documented settings doclets₁ :=
    List.mem_filter.mpr ⟨List.mem_range.mpr hm, hpart⟩
  have hclass : ((runBefore settings doclets₁ m).doclet m).overriding settings
      ((runBefore settings doclets₁ m).doclet m).tags ≠ none →
      ∀ n, ((runBefore settings doclets₁ m).doclet m).memberof = some n → ¬c.Foreign n := by
    rw [hsame]
    exact fun hne n hn => hsolo.refers n (.enclosing hdocumented hne hn)
  obtain ⟨hfeed', hafter, harrival, dropped, ignored, hdropped, hdropped', hignored, hignored'⟩ :=
    h.beside.feed hrun hrun' hnot hnot' (hrun.size_eq ▸ hm) hfreshm hfreshk hfeed hclass
      fun e he => hsolo.refers _ (.ancestor hdocumented he)
  have hbefore : runBefore settings doclets₁ (m + 1) =
      ((runBefore settings doclets₁ m).feed settings m).1 := by
    rw [runBefore, hfeeds]
  have hbefore' : runBefore settings doclets (c.place m + 1) =
      ((runBefore settings doclets (c.place m)).feed settings (c.place m)).1 := by
    rw [runBefore, hfeeds']
  constructor
  case fault => rw [hfeeds', hfeed']
  case beside => rw [hbefore, hbefore']; exact hafter
  case dropped =>
    rw [hbefore, hbefore', hdropped, hdropped']
    exact h.dropped.append_left dropped
  case ignored =>
    rw [hbefore, hbefore', hignored, hignored']
    exact h.ignored.append_left ignored
  case arrivals_right => exact h.arrivals_right
  case arrivals_left => exact h.arrivals_left_succ fun _ => harrival

/-- The next doclet is taken from the left. -/
theorem left (h : Joint c c' doclets₁ doclets₂ doclets m n (c.place m))
    (hsolo : Solo c doclets₁) (hfresh : ∀ d ∈ doclets, d.IsFresh) (hm : m < doclets₁.length)
    (hk : c.place m < doclets.length) :
    Joint c c' doclets₁ doclets₂ doclets (m + 1) n (c.place m + 1) := by
  have hended := snd_feedAll_range_of_le (Nat.le_of_lt hm) hsolo.ended
  have hrun := execution_upTo hsolo.fresh (Nat.le_of_lt hm) hended
  have hsame := hrun.doclet_of_not_arrived (not_mem_arrivals_upTo settings doclets₁ m)
  have hskipped : Run.isSkipped settings
      ((runBefore settings doclets (c.place m)).doclet (c.place m)) =
      Run.isSkipped settings ((runBefore settings doclets₁ m).doclet m) :=
    c.field_eq (Run.isSkipped settings) (fun _ => rfl)
      (h.beside.left.alike m (hrun.size_eq ▸ hm))
  have hfeeds := feedAll_range_succ hended
  have hfeeds' := feedAll_range_succ h.fault
  rw [hskipped] at hfeeds'
  rw [hsame] at hfeeds hfeeds'
  -- whether the doclet takes part is decided alike on both sides
  cases hskip : Run.isSkipped settings ((Run.start doclets₁).doclet m) with
  | true =>
    rw [if_pos hskip] at hfeeds hfeeds'
    exact h.left_of_skipped hfeeds hfeeds' (congrArg Bool.not hskip)
  | false =>
    rw [if_neg (Bool.eq_false_iff.mp hskip)] at hfeeds hfeeds'
    exact h.left_of_fed hsolo hfresh hm hk hfeeds hfeeds' (congrArg Bool.not hskip)

/-- The next doclet is taken from the right. -/
theorem right (h : Joint c c' doclets₁ doclets₂ doclets m n (c'.place n))
    (hsolo : Solo c' doclets₂) (hfresh : ∀ d ∈ doclets, d.IsFresh) (hn : n < doclets₂.length)
    (hk : c'.place n < doclets.length) :
    Joint c c' doclets₁ doclets₂ doclets m (n + 1) (c'.place n + 1) :=
  (h.symm.left hsolo hfresh hn hk).symm

end Joint

/-- A run that takes the doclets of two lists in turn mirrors the runs over both of them when all
the places are taken. -/
theorem joint_of_interleaving (hfresh : ∀ d ∈ doclets, d.IsFresh) (hsolo : Solo c doclets₁)
    (hsolo' : Solo c' doclets₂)
    (hplaces : Interleaving ((List.range doclets₁.length).map c.place)
      ((List.range doclets₂.length).map c'.place) (List.range doclets.length))
    (hstart : Mirror.Beside c c' (Run.start doclets₁) (Run.start doclets₂) (Run.start doclets)) :
    Joint c c' doclets₁ doclets₂ doclets doclets₁.length doclets₂.length doclets.length := by
  have hupTo := hplaces.induction_places
    (P := fun m n k => m ≤ doclets₁.length → n ≤ doclets₂.length → k ≤ doclets.length →
      Joint c c' doclets₁ doclets₂ doclets m n k) ?_ ?_ ?_
  · exact hupTo (Nat.le_refl _) (Nat.le_refl _) (Nat.le_refl _)
  · intro _ _ _
    exact ⟨rfl, hstart, .nil, .nil, nofun, nofun⟩
  · intro m n h hm hn hk
    exact (h (Nat.le_of_succ_le hm) hn (Nat.le_of_succ_le hk)).left hsolo hfresh hm hk
  · intro m n h hm hn hk
    exact (h hm (Nat.le_of_succ_le hn) (Nat.le_of_succ_le hk)).right hsolo' hfresh hn hk

end Resolution

end DocLineage
