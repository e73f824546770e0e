import DocLineage.Proofs.Declaring
import DocLineage.Resolution.Resolve

/-!
# What no run touches

Completion makes doclets inherit, and changes what is pending on them; a declaration adds links and
marks. Whatever is left out of these changes is the same for every doclet after a run as before,
whether the run ends in a fault or not, and whatever has happened to the doclets and the tables
before.

## Main definitions

* `Doclet.IsInert` — a field in which neither inheriting nor what is pending has a part
* `Doclet.IsFixed` — an inert field that no declaration touches
* `Run.fields` — a field of all doclets

## Main results

* `Run.fields_process` — completion touches no inert field
* `Run.fields_feedAll`, `Resolution.fields_resolve` — a run touches no fixed field
-/

namespace DocLineage

/-- A field in which neither inheriting nor what is pending has a part. -/
structure Doclet.IsInert {α : Type} (field : Doclet → α) : Prop where
  inherit : ∀ (d ancestor : Doclet) (mode : InheritMode) (placeholder : Value) (rank : Int),
    field (d.inherit ancestor mode placeholder rank) = field d
  pending : ∀ (d : Doclet) (pending : List PendingAncestor),
    field { d with pending } = field d

/-- An inert field that no declaration touches. -/
structure Doclet.IsFixed {α : Type} (field : Doclet → α) : Prop extends IsInert field where
  declares : ∀ {d d' : Doclet} {entries : List PendingAncestor},
    d.Declares d' entries → field d' = field d

theorem Doclet.isInert_see : IsInert Doclet.see where
  inherit _ _ mode _ _ := by cases mode <;> rfl
  pending _ _ := rfl

theorem Doclet.isFixed_longname : IsFixed Doclet.longname where
  inherit := longname_inherit
  pending _ _ := rfl
  declares h := h.longname

theorem Doclet.isFixed_raw : IsFixed Doclet.raw where
  inherit _ _ mode _ _ := by cases mode <;> rfl
  pending _ _ := rfl
  declares h := by rw [h.eq]

theorem Doclet.isFixed_undocumented : IsFixed Doclet.undocumented where
  inherit _ _ mode _ _ := by cases mode <;> rfl
  pending _ _ := rfl
  declares h := by rw [h.eq]

namespace Run

variable {α : Type} {field : Doclet → α} {settings : Settings} {placeholder : Value} {r r' : Run}
  {id x : DocletId}

/-- A field of all doclets, in the order of their places. -/
def fields (field : Doclet → α) (r : Run) : List α := r.doclets.toList.map field

/-- The field of a doclet is found among those of all doclets. -/
theorem field_doclet (field : Doclet → α) (r : Run) (x : DocletId) :
    field (r.doclet x) = ((r.fields field)[x]?).getD (field {}) := by
  rw [doclet, fields, List.getElem?_map, Array.getElem?_toList]
  cases r.doclets[x]? <;> rfl

theorem field_eq_of_fields_eq (h : r'.fields field = r.fields field) (x : DocletId) :
    field (r'.doclet x) = field (r.doclet x) := by
  rw [field_doclet field r' x, h, ← field_doclet field r x]

theorem fields_update {f : Doclet → Doclet} (h : ∀ d, field (f d) = field d) :
    (r.update id f).fields field = r.fields field := by
  -- place by place: the doclet that is changed keeps the field, and the others are as they were
  ext i
  simp only [fields, update, List.getElem?_map, Array.getElem?_toList, Array.getElem?_modify]
  split
  · cases r.doclets[i]? <;> simp [h]
  · rfl

/-! ### Completion -/

theorem fields_visit (h : Doclet.IsInert field) (e : PendingAncestor) :
    (r.visit placeholder id e).fields field = r.fields field := by
  unfold visit
  split
  · exact fields_update fun d => h.inherit d _ _ _ _
  · rfl

theorem fields_pass (h : Doclet.IsInert field) :
    (r.pass placeholder id).fields field = r.fields field := by
  have hvisits : ∀ (es : List PendingAncestor) (r : Run),
      (es.foldl (visit placeholder id) r).fields field = r.fields field := by
    intro es
    induction es with
    | nil => exact fun _ => rfl
    | cons e es ih => exact fun r => (ih _).trans (fields_visit h e)
  rw [pass_eq, setPending, fields_update fun d => h.pending d _, hvisits]

theorem fields_advance (h : Doclet.IsInert field) :
    (r.advance placeholder id).1.fields field = r.fields field := by
  rw [fields, doclets_advance]
  exact fields_pass h

theorem fields_cascade (h : Doclet.IsInert field) (ws : List Wake) :
    (r.cascade placeholder ws).fields field = r.fields field := by
  -- along the cascade itself: a wake-up makes one more pass, and puts others on the list
  induction r, ws using Run.cascade.induct placeholder with
  | case1 r => rw [cascade]
  | case2 r w ws ih =>
    rw [cascade, ih]
    exact fields_advance h

/-- Completion touches no inert field. -/
theorem fields_process (h : Doclet.IsInert field) :
    (r.process placeholder id).fields field = r.fields field := by
  unfold process
  dsimp only
  rw [fields_cascade h, fields_advance h]

/-! ### Arrivals -/

theorem Declares.fields_eq (hdeclares : Declares id r r') (h : Doclet.IsFixed field) :
    r'.fields field = r.fields field := by
  rw [fields, fields, toList_doclets, toList_doclets, hdeclares.size, List.map_map, List.map_map]
  -- only the doclet that declares is touched, and not in this field
  apply List.map_congr_left
  intro x _
  rw [Function.comp_apply, Function.comp_apply]
  by_cases hx : x = id
  · subst hx
    obtain ⟨entries, hentries⟩ := hdeclares.doclet_self
    exact h.declares hentries
  · rw [hdeclares.doclet_of_ne x hx]

/-- After an arrival an inert field is what it was when the ancestors had been declared. -/
theorem fields_feed_of_isInert (h : Doclet.IsInert field) : (r.feed settings id).1.fields field =
    (r.declareAncestors settings id).1.fields field := by
  rw [feed_eq]
  cases r.declareAncestors settings id with
  | mk r' fault =>
    cases fault with
    | none => exact fields_process h
    | some fault =>
      -- the run ends before anything is merged
      rfl

theorem fields_feed (h : Doclet.IsFixed field) :
    (r.feed settings id).1.fields field = r.fields field := by
  have hdeclares : Declares id r (r.declareAncestors settings id).1 := declares_declareAncestors
  rw [fields_feed_of_isInert h.toIsInert, hdeclares.fields_eq h]

/-- A run touches no fixed field, however far it comes. -/
theorem fields_feedAll (h : Doclet.IsFixed field) (ids : List DocletId) :
    (r.feedAll settings ids).1.fields field = r.fields field := by
  induction ids generalizing r with
  | nil => rfl
  | cons id ids ih =>
    rw [feedAll]
    split
    · exact ih
    · have hfeed : (r.feed settings id).1.fields field = r.fields field := fields_feed h
      cases hfed : r.feed settings id with
      | mk r' fault =>
        rw [hfed] at hfeed
        cases fault with
        | none => exact ih.trans hfeed
        | some fault =>
          -- whoever comes after the fault has not arrived
          exact hfeed

end Run

/-- A resolution touches no fixed field. -/
theorem Resolution.fields_resolve {α : Type} {field : Doclet → α} (h : Doclet.IsFixed field)
    (config : Config) (doclets : List Doclet) (report : Option Report) :
    (resolve config doclets report).doclets.map field = doclets.map field := by
  unfold resolve
  cases Settings.ofConfig config with
  | error fault => rfl
  | ok settings =>
    -- the end of a run clears the tables and leaves the doclets alone
    have hfinish : ∀ r : Run, r.finish.fields field = r.fields field := by
      intro r
      unfold Run.finish
      dsimp only
      split <;> rfl
    dsimp only
    change (runAll settings doclets).1.finish.fields field = _
    rw [hfinish, runAll, Run.fields_feedAll h]
    rfl

end DocLineage
