import DocLineage.Proofs.ParamNames
import DocLineage.Proofs.Recording

/-!
# See links

Ancestors that a doclet declares in full are linked, whether they ever complete or not. Tags and
overrides add their links on their own, and neither adds what is there; so it is as if all of the
declared names were added at once to the links that the doclet was loaded with.

## Main definitions

* `Doclet.linked` — the links of a doclet that has declared some ancestors
* `Doclet.Links` — a doclet with declarations recorded on it and linked

## Main results

* `Doclet.linked_self` — what has been linked once is not linked again
* `Doclet.links_record` — whatever a doclet records when it arrives, it links what it declares
-/

namespace DocLineage

/-- A list that is extended twice is extended by both signatures. -/
theorem Param.extend_append {names signature signature' : List Text} :
    extend (extend names signature) signature' = extend names (signature ++ signature') := by
  induction signature generalizing names with
  | nil => rw [extend_nil, List.nil_append]
  | cons n ns ih => rw [List.cons_append, extend_cons, extend_cons, ih]

namespace Doclet

/-- The links of a doclet that has declared some ancestors: where links are wanted, those that are
declared in full are added, unless they are linked already. -/
def linked (wanted : Bool) (see : List Text) (entries : List PendingAncestor) : List Text :=
  if wanted then
    Param.extend see ((entries.filter fun e => e.mode = .full).map PendingAncestor.identity)
  else see

/-- A doclet with declarations recorded on it and linked. -/
structure Links (wanted : Bool) (d d' : Doclet) (entries : List PendingAncestor) : Prop where
  declares : d.Declares d' entries
  see : d'.see = linked wanted d.see entries

variable {settings : Settings} {d d' d'' : Doclet} {entries entries' : List PendingAncestor}
  {wanted : Bool} {see : List Text}

theorem linked_nil : linked wanted see [] = see := by
  unfold linked
  split
  · exact Param.extend_nil
  · rfl

theorem linked_linked : linked wanted (linked wanted see entries) entries' =
    linked wanted see (entries ++ entries') := by
  unfold linked
  split
  · rw [Param.extend_append, List.filter_append, List.map_append]
  · rfl

/-- Whatever has been linked once is not linked again. -/
theorem linked_self : linked wanted (linked wanted see entries) entries =
    linked wanted see entries := by
  unfold linked
  split
  · exact Param.extend_extend
  · rfl

theorem linked_eq_nil (h : linked wanted see entries = []) : see = [] := by
  unfold linked at h
  split at h
  · exact (List.append_eq_nil_iff.mp h).1
  · exact h

namespace Links

theorem refl (wanted : Bool) (d : Doclet) : d.Links wanted d [] := ⟨.refl d, linked_nil.symm⟩

theorem trans (h : d.Links wanted d' entries) (h' : d'.Links wanted d'' entries') :
    d.Links wanted d'' (entries ++ entries') :=
  ⟨h.declares.trans h'.declares, by rw [h'.see, h.see, linked_linked]⟩

theorem of_markParamsOnly (mark : Bool) : d.Links wanted (d.markParamsOnly mark) [] :=
  ⟨declares_markParamsOnly mark, linked_nil.symm⟩

theorem of_declare (ancestor : Text) :
    d.Links wanted (d.declare ancestor .paramsOnly) [⟨ancestor, .paramsOnly, d.declared⟩] :=
  ⟨declares_declare ancestor .paramsOnly, linked_nil.symm⟩

/-- An ancestor that is declared in full is linked, whatever is marked in between. -/
theorem of_addLink (ancestor : Text)
    (h : (d.declare ancestor .full).Declares d' []) (hsee : d'.see = d.see) :
    d.Links wanted (d'.addLink wanted ancestor) [⟨ancestor, .full, d.declared⟩] := by
  refine ⟨(declares_declare ancestor .full).trans (h.trans (declares_addLink _ _)), ?_⟩
  unfold linked addLink
  cases wanted with
  | false => exact hsee
  | true =>
    change _ = Param.extend d.see [ancestor]
    rw [Param.extend_cons, Param.extend_nil, hsee]
    by_cases hmem : ancestor ∈ d.see
    · simp [hmem, hsee]
    · simp [hmem]

end Links

theorem links_perform (action : InheritTag) (tag : Tag) :
    ∃ entries, d.Links settings.addsSeeLinks (d.perform settings action tag) entries := by
  unfold perform
  cases action with
  | params =>
    dsimp only
    split
    · exact ⟨[], .refl _ d⟩
    · exact ⟨_, (Links.of_declare _).trans (.of_markParamsOnly true)⟩
  | doc =>
    dsimp only
    split
    · exact ⟨[], .refl _ d⟩
    · exact ⟨_, .of_addLink _ (declares_markParamsOnly false) rfl⟩
  | override =>
    dsimp only
    split
    · exact ⟨[], .refl _ d⟩
    · exact ⟨[], .refl _ d⟩
    · exact ⟨[], .of_markParamsOnly false⟩

theorem links_foldl {α : Type} {f : Doclet → α → Doclet}
    (h : ∀ (d : Doclet) (a : α), ∃ entries, d.Links wanted (f d a) entries) (as : List α)
    (d : Doclet) :
    ∃ entries, d.Links wanted (as.foldl f d) entries := by
  induction as generalizing d with
  | nil => exact ⟨[], .refl _ d⟩
  | cons a as ih =>
    obtain ⟨entries, hfirst⟩ := h d a
    obtain ⟨entries', hrest⟩ := ih (f d a)
    exact ⟨entries ++ entries', hfirst.trans hrest⟩

theorem links_applyTags (settings : Settings) (d : Doclet) :
    ∃ entries, d.Links settings.addsSeeLinks (d.applyTags settings) entries := by
  refine links_foldl (fun d tag => ?_) d.tags d
  unfold applyTag
  split
  · exact links_perform _ tag
  · exact ⟨[], .refl _ d⟩

theorem links_expand (settings : Settings) (d : Doclet) (enclosing : DocletId)
    (superclasses : List Text) : ∃ entries,
    d.Links settings.addsSeeLinks (d.expand settings enclosing superclasses).1 entries := by
  have henclosing : d.Links settings.addsSeeLinks { d with enclosing := some enclosing } [] :=
    ⟨.of_eq rfl, linked_nil.symm⟩
  unfold expand
  dsimp only
  cases settings.separators with
  | error fault => exact ⟨[], henclosing⟩
  | ok separators =>
    dsimp only
    cases superclasses with
    | nil => exact ⟨[], henclosing⟩
    | cons superclass superclasses =>
      cases (separators.of d.scope).toText with
      | error fault => exact ⟨[], henclosing⟩
      | ok separator =>
        obtain ⟨entries, hmembers⟩ := links_foldl (f := declareMember settings separator)
          (fun d superclass => ⟨_, .of_addLink _ (.refl _) rfl⟩) (superclass :: superclasses)
          { d with enclosing := some enclosing }
        exact ⟨_, henclosing.trans hmembers⟩

/-- Whatever a doclet records when it arrives, it declares some ancestors and links those that it
declares in full. -/
theorem links_record (found : Option (DocletId × List Text)) (d : Doclet) :
    ∃ entries, d.Links settings.addsSeeLinks (d.record settings found).1 entries := by
  obtain ⟨entries, htags⟩ := links_applyTags settings d
  unfold record
  split
  · obtain ⟨entries', hexpand⟩ := links_expand settings (d.applyTags settings) _ _
    exact ⟨_, htags.trans hexpand⟩
  · exact ⟨entries, htags⟩

end Doclet

/-- A doclet that arrives when no override is left of an earlier one declares some ancestors, and
links those that it declares in full. -/
theorem Run.links_declareAncestors (settings : Settings) {r : Run}
    (h : r.registry.overrides = []) (id : DocletId) : ∃ entries,
    (r.doclet id).Links settings.addsSeeLinks ((r.declareAncestors settings id).1.doclet id)
      entries := by
  by_cases hid : id < r.doclets.size
  · rw [(changes_declareAncestors settings hid h).1.doclet_self hid]
    exact Doclet.links_record _ _
  · -- out of range there is no doclet, neither before nor after
    have hid := Nat.le_of_not_lt hid
    have hdeclares : Declares id r (r.declareAncestors settings id).1 := declares_declareAncestors
    rw [doclet_of_size_le hid, doclet_of_size_le (by rw [hdeclares.size]; exact hid)]
    exact ⟨[], .refl _ _⟩

end DocLineage
