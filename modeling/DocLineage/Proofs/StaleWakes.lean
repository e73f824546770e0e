import DocLineage.Proofs.History
import DocLineage.Proofs.Retention
import DocLineage.Proofs.Termination

/-!
# Waking a complete doclet

A doclet that waits for two ancestors is set free when the first one is complete. If the second one
becomes complete in the cascade that this sets off, the doclet is completed then, and still stands
on the agenda of the first one, so that it is taken up once more. When names do not repeat this does
no harm: the doclet is entered under its name already, no one waits for a name that is complete, and
the completion that is made again finds everything done.

What the doclets were like before the run does not matter here, so that its states are described
without asking for fresh doclets.

## Main definitions

* `Run.Cascades` — the states of a run, with the doclets that have arrived and those still to be
  woken

## Main results

* `Run.Cascades.cascade`, `Run.Cascades.feed` — a run is made of such states
* `Linked.settle_of_complete` — completing a complete doclet again changes no table
* `Run.Cascades.process_of_isComplete` — taking up a complete doclet changes nothing and wakes no
  one
-/

namespace DocLineage

/-- The states of a run in which no doclet is being taken up: the doclets that have arrived, and the
agenda of those still to be woken. A run begins with an empty registry, no doclet arrives twice,
none arrives before the agenda is worked off, and whoever is woken by the front of the agenda comes
before the rest. -/
inductive Run.Cascades (settings : Settings) (r₀ : Run) : List DocletId → Run → List Wake → Prop
  | begin : Cascades settings r₀ [] r₀.begin []
  | arrive {ids : List DocletId} {r r' : Run} {id : DocletId} :
      Cascades settings r₀ ids r [] → id ∉ ids → id < r₀.doclets.size →
      r.declareAncestors settings id = (r', none) →
      Cascades settings r₀ (ids ++ [id]) (r'.advance settings.placeholder id).1
        (r'.advance settings.placeholder id).2
  | wake {ids : List DocletId} {r : Run} {w : Wake} {ws : List Wake} :
      Cascades settings r₀ ids r (w :: ws) →
      Cascades settings r₀ ids (r.takeUp settings.placeholder w).1
        ((r.takeUp settings.placeholder w).2 ++ ws)

/-- The run and its agenda when the front of the agenda has been taken up a number of times. -/
def Run.takeUps (placeholder : Value) : Nat → Run × List Wake → Run × List Wake
  | 0, s => s
  | _ + 1, (r, []) => (r, [])
  | n + 1, (r, w :: ws) =>
    takeUps placeholder n ((r.takeUp placeholder w).1, (r.takeUp placeholder w).2 ++ ws)

namespace Linked

variable {as : List Arrival} {r : Run} {ws : List Wake} {a : Arrival}

/-- When names do not repeat, completing a complete doclet again changes no table and wakes no
one. -/
theorem settle_of_complete (h : Linked as r ws none) (hnames : NamesDistinct as) (ha : a ∈ as)
    (hnil : (r.doclet a.id).pending = []) :
    (r.settle a.id).1.registry = r.registry ∧ (r.settle a.id).2 = [] := by
  rw [Run.registry_settle, Run.settle]
  split
  · exact ⟨rfl, rfl⟩
  · next hlong =>
    have hcompleted : r.registry.completed.get? (r.doclet a.id).longname = some a.id :=
      h.get?_completed_of_finished hnames ha (by simp) hnil hlong
    have hdone : r.registry.completed.contains (r.doclet a.id).longname = true :=
      Option.isSome_iff_exists.mpr ⟨_, hcompleted⟩
    have hwaiting : r.registry.waiting.get? (r.doclet a.id).longname ≠ some a.id := fun hget =>
      (h.waiting _ _ hget).2.2.2 (by simp) hnil
    constructor
    · exact Registry.settle_of_settled hcompleted hwaiting (h.free _ hdone)
    · rw [h.not_mem_waiters hdone, List.map_nil]

/-- When names do not repeat, taking up a complete doclet changes no doclet and no table, and takes
up no other doclet. -/
theorem process_of_complete (placeholder : Value) (h : Linked as r ws none)
    (hnames : NamesDistinct as) (ha : a ∈ as) (hnil : (r.doclet a.id).pending = []) :
    (r.process placeholder a.id).doclets = r.doclets ∧
      (r.process placeholder a.id).registry = r.registry ∧
      Call.Returns placeholder r (.process a.id) 1 1 (r.process placeholder a.id) := by
  obtain ⟨hregistry, hwoken⟩ := h.settle_of_complete hnames ha hnil
  have hpass : r.pass placeholder a.id = r := Run.pass_of_complete hnil
  have hcomplete : ((r.pass placeholder a.id).doclet a.id).isComplete = true := by
    rw [hpass]
    exact List.isEmpty_iff.mpr hnil
  -- nothing is merged, and the completion that is made again wakes no one
  have hprocess : r.process placeholder a.id = (r.settle a.id).1 := by
    simp only [Run.process, Run.advance_of_isComplete hcomplete, hpass, hwoken]
    rw [Run.cascade]
  have hsettled : Call.Returns placeholder r (.complete a.id) 0 0 (r.settle a.id).1 := by
    refine .settle ?_
    rw [hwoken]
    exact .nil
  rw [hprocess]
  refine ⟨Run.doclets_settle, hregistry, .finish hcomplete ?_⟩
  rw [hpass]
  exact hsettled

end Linked

namespace Run.Cascades

variable {settings : Settings} {r₀ r : Run} {ids : List DocletId} {id : DocletId}
  {w : Wake} {ws : List Wake}

/-- Such states are passed through when an agenda is worked off. -/
theorem takeUps {s : Run × List Wake} (h : Cascades settings r₀ ids s.1 s.2) (n : Nat) :
    Cascades settings r₀ ids (Run.takeUps settings.placeholder n s).1
      (Run.takeUps settings.placeholder n s).2 := by
  induction n generalizing s with
  | zero => exact h
  | succ n ih =>
    obtain ⟨r, ws⟩ := s
    cases ws with
    | nil => exact h
    | cons w ws => exact ih (s := (_, _)) h.wake

/-- When it is worked off, such a state is left. -/
theorem cascade (h : Cascades settings r₀ ids r ws) :
    Cascades settings r₀ ids (r.cascade settings.placeholder ws) [] := by
  induction r, ws using Run.cascade.induct settings.placeholder with
  | case1 r =>
    rw [Run.cascade]
    exact h
  | case2 r w ws ih =>
    rw [Run.cascade]
    exact ih h.wake

/-- An arrival without a fault leads to such a state. -/
theorem feed (h : Cascades settings r₀ ids r []) (hid : id ∉ ids) (hsize : id < r₀.doclets.size)
    (hfeed : (r.feed settings id).2 = none) :
    Cascades settings r₀ (ids ++ [id]) (r.feed settings id).1 [] := by
  have hdeclared := declareAncestors_of_feed hfeed
  rw [feed_eq, hdeclared]
  dsimp only [process]
  exact (h.arrive hid hsize hdeclared).cascade

/-- No doclet is added or removed in a run. -/
theorem size_eq (h : Cascades settings r₀ ids r ws) : r.doclets.size = r₀.doclets.size := by
  induction h with
  | begin => rfl
  | arrive _ _ _ hdeclared ih =>
    rw [size_advance, (declares_of_declareAncestors hdeclared).size, ih]
  | wake _ ih => exact size_advance.trans ih

/-- In every such state the doclets, the tables and the agenda agree. -/
theorem exists_linked (h : Cascades settings r₀ ids r ws) :
    ∃ as, as.map Arrival.id = ids ∧ Linked as r ws none := by
  induction h with
  | begin => exact ⟨[], rfl, .begin r₀⟩
  | @arrive _ _ r' id h hid hsize hdeclared ih =>
    obtain ⟨as, rfl, hlinked⟩ := ih
    rw [← h.size_eq] at hsize
    have hadvance : Linked _ (r'.advance settings.placeholder id).1 _ none :=
      (hlinked.declare hid hsize hdeclared).advance
    rw [List.append_nil] at hadvance
    exact ⟨_, by rw [List.map_append]; rfl, hadvance⟩
  | wake _ ih =>
    obtain ⟨as, rfl, hlinked⟩ := ih
    exact ⟨as, rfl, (hlinked.takeUp.note _).advance⟩

/-- No doclet gets another name in a run. -/
theorem fields_longname (h : Cascades settings r₀ ids r ws) :
    r.fields Doclet.longname = r₀.fields Doclet.longname := by
  have hinert : Doclet.IsInert Doclet.longname := Doclet.isFixed_longname.toIsInert
  induction h with
  | begin => rfl
  | arrive _ _ _ hdeclared ih =>
    rw [fields_advance hinert,
      (declares_of_declareAncestors hdeclared).fields_eq Doclet.isFixed_longname, ih]
  | wake _ ih => exact (fields_advance hinert).trans ih

/-- Names that did not repeat before the run do not repeat in it. -/
theorem namesDistinct {as : List Arrival} (h : Cascades settings r₀ (as.map Arrival.id) r ws)
    (hnames : ∀ x ∈ as.map Arrival.id, ∀ y ∈ as.map Arrival.id,
      (r₀.doclet x).longname = (r₀.doclet y).longname → (r₀.doclet x).longname ≠ [] → x = y)
    (hlinked : Linked as r ws none) : NamesDistinct as := by
  have hname : ∀ a ∈ as, a.declared.longname = (r₀.doclet a.id).longname := by
    intro a ha
    rw [← hlinked.longname a ha]
    exact field_eq_of_fields_eq h.fields_longname a.id
  intro a ha b hb heq hne
  rw [hname a ha] at heq hne
  rw [hname b hb] at heq
  exact hnames a.id (List.mem_map_of_mem ha) b.id (List.mem_map_of_mem hb) heq hne

/-- When no two of the doclets that have arrived go by the same name, taking up one that is complete
already changes no doclet and no table, and takes up no other doclet. The doclet is the one that is
entered under its name. -/
theorem process_of_isComplete
    (hnames : ∀ x ∈ ids, ∀ y ∈ ids,
      (r₀.doclet x).longname = (r₀.doclet y).longname → (r₀.doclet x).longname ≠ [] → x = y)
    (h : Cascades settings r₀ ids r (w :: ws)) (hdone : (r.doclet w.waiter).isComplete = true) :
    let called := r.note (.woken (r.doclet w.waiter).label w.ancestor)
    let returned := called.process settings.placeholder w.waiter
    returned.doclets = r.doclets ∧ returned.registry = r.registry ∧
      Call.Returns settings.placeholder called (.process w.waiter) 1 1 returned ∧
      ((r.doclet w.waiter).longname ≠ [] →
        r.registry.completed.get? (r.doclet w.waiter).longname = some w.waiter) := by
  intro called returned
  obtain ⟨as, rfl, hlinked⟩ := h.exists_linked
  have hnames : NamesDistinct as := h.namesDistinct hnames hlinked
  have hnil : (r.doclet w.waiter).pending = [] := List.isEmpty_iff.mp hdone
  obtain ⟨a, ha, heq⟩ := List.mem_map.mp (hlinked.agenda w List.mem_cons_self).2
  have hcalled : Linked as called (w :: ws) none := hlinked.note _
  have hprocess := hcalled.process_of_complete settings.placeholder hnames ha (heq ▸ hnil)
  rw [heq] at hprocess
  obtain ⟨hdoclets, hregistry, hreturns⟩ := hprocess
  refine ⟨hdoclets, hregistry, hreturns, fun hlong => ?_⟩
  rw [← heq] at hlong hnil ⊢
  exact hlinked.get?_completed_of_finished hnames ha (by simp) hnil hlong

/-- A doclet that waits for two others, one of which waits for the other one; and a doclet that
waits for it. -/
def diamond : List Doclet :=
  [.tagged "B" [⟨"inheritdoc", "A"⟩],
    .tagged "D" [⟨"inheritdoc", "B"⟩, ⟨"inheritparams", "A"⟩],
    .tagged "E" [⟨"inheritdoc", "D"⟩],
    .tagged "A" []]

/-- The run over the diamond when all but the last doclet have arrived. -/
def gathered : Run :=
  ((((start diamond).begin.feed .standard 0).1.feed .standard 1).1.feed .standard 2).1

/-- The run and its agenda when the last doclet has arrived and three doclets have been woken. -/
def midway : Run × List Wake :=
  Run.takeUps (.text "undocumented") 3
    ((gathered.declareAncestors .standard 3).1.advance (.text "undocumented") 3)

/-- In the cascade of the last doclet the second one is completed by way of the first one, and wakes
the third one. Its own wake-up is still on the agenda then, and does nothing. -/
theorem process_of_isComplete_diamond :
    (∀ x ∈ [0, 1, 2, 3], ∀ y ∈ [0, 1, 2, 3],
        ((start diamond).doclet x).longname = ((start diamond).doclet y).longname →
        ((start diamond).doclet x).longname ≠ [] → x = y) ∧
      Cascades .standard (start diamond) [0, 1, 2, 3] midway.1 [⟨1, "A"⟩] ∧
      (midway.1.doclet 1).isComplete = true ∧
      ∀ r, (midway.1.note (.woken (some "D") "A")).process (.text "undocumented") 1 = r →
        r.doclets = midway.1.doclets ∧ r.registry.completed.get? "D" = some 1 ∧
          r.registry.completed.keys = ["A", "B", "D", "E"] := by
  have hnames : ∀ x ∈ [0, 1, 2, 3], ∀ y ∈ [0, 1, 2, 3],
      ((start diamond).doclet x).longname = ((start diamond).doclet y).longname →
      ((start diamond).doclet x).longname ≠ [] → x = y := by decide
  have hvalues : (midway.2, (midway.1.doclet 1).isComplete, (midway.1.doclet 1).longname,
      (midway.1.doclet 1).label, midway.1.registry.completed.keys) =
      (([⟨1, "A"⟩] : List Wake), true, Text.ofString "D", some (Text.ofString "D"),
        ([.ofString "A", .ofString "B", .ofString "D", .ofString "E"] : List Text)) := by cbv
  simp only [Prod.mk.injEq] at hvalues
  obtain ⟨hagenda, hdone, hlongname, hlabel, hkeys⟩ := hvalues
  have hgathered : Cascades .standard (start diamond) [0, 1, 2] gathered [] := by
    refine .feed (.feed (.feed .begin ?_ ?_ ?_) ?_ ?_ ?_) ?_ ?_ ?_
    case refine_3 | refine_6 | refine_9 => exact snd_feed Settings.canJoin_standard
    all_goals decide
  have hdeclared : gathered.declareAncestors .standard 3 =
      ((gathered.declareAncestors .standard 3).1, none) :=
    Prod.ext rfl (snd_declareAncestors Settings.canJoin_standard)
  have h : Cascades .standard (start diamond) [0, 1, 2, 3] midway.1 midway.2 :=
    (hgathered.arrive (by decide) (by decide) hdeclared).takeUps 3
  rw [hagenda] at h
  obtain ⟨hdoclets, hregistry, -, hcompleted⟩ := process_of_isComplete hnames h hdone
  dsimp only at hdoclets hregistry
  rw [hlabel] at hdoclets hregistry
  refine ⟨hnames, h, hdone, ?_⟩
  rintro r rfl
  have hnamed : (midway.1.doclet 1).longname ≠ [] := by
    rw [hlongname]
    decide
  have hentry := hcompleted hnamed
  rw [hlongname] at hentry
  have hreturned : ((midway.1.note (.woken (some "D") "A")).process (.text "undocumented")
      1).registry = midway.1.registry := hregistry
  rw [hreturned]
  exact ⟨hdoclets, hentry, hkeys⟩

end Run.Cascades

end DocLineage
