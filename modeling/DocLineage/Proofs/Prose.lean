import DocLineage.Proofs.History
import Mathlib

/-!
# Where prose comes from

Ancestors are merged in the order in which they happen to become complete, and yet prose comes from
the ancestor that was declared first among those that have any. Two merges through declarations of
different ranks may be exchanged, so that one may as well merge in the order of declaration; and
then the first prose that is found stays.

## Main definitions

* `ProseField`, `Doclet.prose` — the three prose fields of a doclet
* `Prose.content` — what a field says, if it is not blank
* `Run.offeredProse` — what the ancestor of a declaration has to say

## Main results

* `Prose.receive_comm` — merges of different ranks may be exchanged
* `Resolution.text_prose_of_documented` — a doclet says what it said itself, or else what the first
  declared of its complete ancestors says
-/

namespace DocLineage

/-- A prose field of a doclet. -/
inductive ProseField where
  | description
  | summary
  | classdesc
deriving DecidableEq, Repr

/-- A prose field of a doclet. -/
def Doclet.prose (d : Doclet) : ProseField → Prose
  | .description => d.description
  | .summary => d.summary
  | .classdesc => d.classdesc

/-- What a field says, if it is not blank. -/
def Prose.content (p : Prose) : Option Text := p.text.filter fun t => !t.isBlank

/-- A field after one merge, where every ancestor's field is as it is read. -/
def Prose.receive (read : DocletId → Prose) (own : Prose) (m : Merge) : Prose :=
  match m.entry.mode with
  | .paramsOnly => own
  | .full => own.inherit (read m.ancestor) m.entry.rank

/-- What a merge has to say in a field. -/
def Merge.offeredProse (read : DocletId → Prose) (m : Merge) : Option Text :=
  match m.entry.mode with
  | .paramsOnly => none
  | .full => (read m.ancestor).content

/-- What the ancestor of a declaration has to say in a field, if the declaration asks for prose and
the ancestor is complete. -/
def Run.offeredProse (r : Run) (field : ProseField) (e : PendingAncestor) : Option Text :=
  (r.registry.completed.get? e.identity).bind fun ancestor =>
    Merge.offeredProse (fun x => (r.doclet x).prose field) ⟨ancestor, e⟩

namespace Prose

variable {read : DocletId → Prose} {own p : Prose} {m m' : Merge} {ms ms' : List Merge}

theorem content_of_isBlank (h : p.isBlank = true) : p.content = none := by
  unfold content isBlank at *
  cases htext : p.text with
  | none => rfl
  | some t =>
    rw [htext] at h
    exact Option.filter_eq_none_iff.mpr fun t' ht' => by simpa [← Option.some.inj ht'] using h

/-- A field that is not blank says what it holds. -/
theorem exists_content_of_not_isBlank (h : p.isBlank = false) :
    ∃ t, p.content = some t ∧ p.text = some t := by
  unfold content isBlank at *
  cases htext : p.text with
  | none => rw [htext] at h; cases h
  | some t =>
    rw [htext] at h
    exact ⟨t, by simp [Option.filter_some, h], rfl⟩

/-! ### One merge -/

/-- A merge that offers something is taken by a field that is blank or was inherited through a later
declaration. -/
theorem receive_eq : receive read own m =
    match m.offeredProse read with
    | none => own
    | some t =>
      if own.isBlank || own.isOutranked m.entry.rank then ⟨some t, some m.entry.rank⟩ else own := by
  unfold receive Merge.offeredProse
  cases m.entry.mode with
  | paramsOnly => rfl
  | full =>
    cases hblank : (read m.ancestor).isBlank with
    | true => simp only [inherit, hblank, content_of_isBlank hblank, if_true]
    | false =>
      obtain ⟨t, hcontent, htext⟩ := exists_content_of_not_isBlank hblank
      simp only [inherit, hblank, hcontent, htext, Bool.false_eq_true, if_false]

/-- What is offered is not blank. -/
theorem isBlank_of_offered {t : Text} (h : m.offeredProse read = some t) (source : Option Int) :
    isBlank ⟨some t, source⟩ = false := by
  unfold Merge.offeredProse at h
  cases hmode : m.entry.mode with
  | paramsOnly => rw [hmode] at h; cases h
  | full =>
    rw [hmode] at h
    have hfilter := Option.filter_eq_some_iff.mp h
    simpa [isBlank] using hfilter.2

/-- The lower one of two ranks is picked in either order. -/
theorem ite_lt_comm {α : Type} {i j : Int} (h : i ≠ j) (x y : α) :
    (if j < i then y else x) = if i < j then x else y := by
  split_ifs <;> first | rfl | omega

/-- Merges through declarations of different ranks may be exchanged: whichever comes first, the
lower rank stays. -/
theorem receive_comm (h : m.entry.rank ≠ m'.entry.rank) :
    receive read (receive read own m) m' = receive read (receive read own m') m := by
  cases hm : m.offeredProse read with
  | none => simp only [receive_eq, hm]
  | some t =>
    cases hm' : m'.offeredProse read with
    | none => simp only [receive_eq, hm, hm']
    | some t' =>
      have ht := isBlank_of_offered hm
      have ht' := isBlank_of_offered hm'
      simp only [receive_eq, hm, hm']
      cases hblank : own.isBlank with
      | true =>
        -- the first of the two is taken, and replaced by the second one if that has a lower rank
        simp only [ht, ht', isOutranked, Bool.true_or, if_true, Bool.false_or, decide_eq_true_eq]
        exact ite_lt_comm h _ _
      | false =>
        cases hsource : own.source with
        | none => simp [hblank, hsource, isOutranked]
        | some source =>
          simp only [hsource, isOutranked, Bool.false_or, decide_eq_true_eq]
          by_cases hlt : m.entry.rank < source <;> by_cases hlt' : m'.entry.rank < source
          · simp only [hlt, hlt', if_true, ht, ht', Bool.false_or, decide_eq_true_eq]
            exact ite_lt_comm h _ _
          · have hnot : ¬m'.entry.rank < m.entry.rank := by omega
            simp [hlt, hlt', hnot, ht, hblank, hsource]
          · have hnot : ¬m.entry.rank < m'.entry.rank := by omega
            simp [hlt, hlt', hnot, ht', hblank, hsource]
          · simp [hlt, hlt', hblank, hsource]

/-! ### Many merges -/

/-- Merges through declarations of different ranks may come in any order. -/
theorem foldl_receive_perm (h : ms.Perm ms')
    (hranks : (ms.map fun m => m.entry.rank).Nodup) :
    ms.foldl (receive read) own = ms'.foldl (receive read) own := by
  -- two merges of one rank are the same merge
  refine h.foldl_eq' (fun m hm m' hm' p => ?_) own
  by_cases heq : m = m'
  · rw [heq]
  · refine (receive_comm fun hrank => heq ?_).symm
    exact List.inj_on_of_nodup_map hranks hm hm' hrank.symm

/-- A field that says something stays, unless it was inherited through a later declaration. -/
theorem foldl_receive_of_not_isOutranked (hblank : own.isBlank = false)
    (h : ∀ m ∈ ms, own.isOutranked m.entry.rank = false) :
    ms.foldl (receive read) own = own := by
  induction ms with
  | nil => rfl
  | cons m ms ih =>
    have hm : receive read own m = own := by
      rw [receive_eq]
      cases m.offeredProse read with
      | none => rfl
      | some t => simp [hblank, h m List.mem_cons_self]
    rw [List.foldl_cons, hm]
    exact ih fun m' hm' => h m' (List.mem_cons_of_mem m hm')

/-- After merges in the order of declaration a field says what it said itself, or else what was
offered first. -/
theorem text_foldl_receive (hranks : ms.Pairwise fun m m' => m.entry.rank < m'.entry.rank)
    (hsource : own.source = none) : (ms.foldl (receive read) own).text =
      (own.content <|> ms.findSome? (Merge.offeredProse read) <|> own.text) := by
  cases hblank : own.isBlank with
  | false =>
    obtain ⟨t, hcontent, htext⟩ := exists_content_of_not_isBlank hblank
    rw [foldl_receive_of_not_isOutranked hblank fun m _ => by rw [isOutranked, hsource], hcontent,
      htext]
    rfl
  | true =>
    -- a blank field takes the first thing that it is offered, and nothing after that
    rw [content_of_isBlank hblank]
    change _ = (ms.findSome? (Merge.offeredProse read) <|> own.text)
    induction ms with
    | nil => rfl
    | cons m ms ih =>
      rw [List.pairwise_cons] at hranks
      rw [List.foldl_cons, receive_eq, List.findSome?_cons]
      cases hm : m.offeredProse read with
      | none => exact ih hranks.2
      | some t =>
        simp only [hblank, Bool.true_or, if_true]
        -- what comes later has a higher rank
        rw [foldl_receive_of_not_isOutranked (isBlank_of_offered hm _)]
        · rfl
        · intro m' hm'
          have hlt := hranks.1 m' hm'
          simp only [isOutranked, decide_eq_false_iff_not]
          omega

end Prose

/-! ### The prose of a doclet -/

namespace Doclet

variable {d ancestor : Doclet} {field : ProseField} {placeholder : Value}

theorem prose_replay (read : DocletId → Doclet) (ms : List Merge) :
    (d.replay placeholder read ms).prose field =
      ms.foldl (Prose.receive fun x => (read x).prose field) (d.prose field) := by
  induction ms generalizing d with
  | nil => rfl
  | cons m ms ih =>
    have hm : (d.inherit (read m.ancestor) m.entry.mode placeholder m.entry.rank).prose field =
        Prose.receive (fun x => (read x).prose field) (d.prose field) m := by
      unfold Prose.receive
      cases m.entry.mode <;> cases field <;> rfl
    rw [replay, List.foldl_cons, ← replay, ih, hm, List.foldl_cons]

/-- Declaring ancestors leaves prose alone. -/
theorem Declares.prose {d' : Doclet} {entries : List PendingAncestor}
    (h : d.Declares d' entries) : d'.prose field = d.prose field := by
  rw [h.eq]
  cases field <;> rfl

/-- All prose of a fresh doclet is its own. -/
theorem IsFresh.source_prose (h : d.IsFresh) : (d.prose field).source = none := by
  cases field with
  | description => exact h.description
  | summary => exact h.summary
  | classdesc => exact h.classdesc

end Doclet

/-! ### A whole run -/

/-- When a run is over a doclet says in a field what it said itself, or else what the first declared
of its complete ancestors says that has anything to say. -/
theorem Execution.text_prose {settings : Settings} {r₀ r : Run} {as : List Arrival} {a : Arrival}
    {ps : List Pass} (h : Execution settings r₀ as ps r [] none) (hnames : NamesDistinct as)
    (ha : a ∈ as) (field : ProseField) : ((r.doclet a.id).prose field).text =
      (((r₀.doclet a.id).prose field).content <|>
        a.declared.pending.findSome? (r.offeredProse field) <|>
        ((r₀.doclet a.id).prose field).text) := by
  obtain ⟨hfresh, hdeclares⟩ := h.declares a ha
  have hfinal : (r.doclet a.id).prose field = (mergesInto ps a.id).foldl
      (Prose.receive fun x => (r.doclet x).prose field) ((r₀.doclet a.id).prose field) := by
    rw [← hdeclares.prose, ← Doclet.prose_replay]
    -- what is pending is no part of the prose
    conv_lhs => rw [h.replays.replayed a ha]
    cases field <;> rfl
  have hranks : (r.registry.mergesOf a.declared.pending).Pairwise
      fun m m' => m.entry.rank < m'.entry.rank := by
    have hentries := hdeclares.pairwise_rank.sublist
      (List.filter_sublist (p := fun e => r.registry.completed.contains e.identity))
    rwa [← Registry.map_entry_mergesOf, List.pairwise_map] at hentries
  have hperm := h.perm_mergesInto hnames ha
  -- the order in which the ancestors were merged does not matter, as their ranks are different
  have hnodup : ((mergesInto ps a.id).map fun m => m.entry.rank).Nodup := by
    rw [(hperm.map _).nodup_iff, List.Nodup, List.pairwise_map]
    exact hranks.imp fun hlt heq => by omega
  rw [hfinal, Prose.foldl_receive_perm hperm hnodup,
    Prose.text_foldl_receive hranks hfresh.source_prose, Registry.findSome?_mergesOf]
  rfl

/-- Prose comes from the doclet itself, or else from the first declared of its complete ancestors
that has any, in whatever order the doclets arrive. What is declared without prose yields none. -/
theorem Resolution.text_prose_of_documented {settings : Settings} {doclets : List Doclet}
    {run : Run} {id : DocletId} (hfresh : ∀ d ∈ doclets, d.IsFresh) (hnames : DistinctNames doclets)
    (hrun : runAll settings doclets = (run, none)) (hid : id ∈ documented settings doclets)
    (field : ProseField) : ((run.doclet id).prose field).text =
      ((((Run.start doclets).doclet id).prose field).content <|>
        (recorded settings doclets id).findSome? (run.offeredProse field) <|>
        (((Run.start doclets).doclet id).prose field).text) := by
  have h := execution hfresh hrun
  exact h.text_prose (hnames.arrivals h) (List.mem_map_of_mem hid) field

/-- A doclet with a description. -/
def Doclet.described (d : Doclet) (description : Text) : Doclet :=
  { d with description := ⟨some description, none⟩ }

theorem Doclet.IsFresh.described {d : Doclet} (h : d.IsFresh) (description : Text) :
    (d.described description).IsFresh :=
  { h with description := rfl }

/-- A doclet that declares three ancestors, which become complete in the opposite order. -/
def Resolution.backwards : List Doclet :=
  [.tagged "D" [⟨"inheritparams", "P"⟩, ⟨"inheritdoc", "A"⟩, ⟨"inheritdoc", "B"⟩],
    (Doclet.tagged "B" []).described "of B",
    (Doclet.tagged "A" []).described "of A",
    (Doclet.tagged "P" []).described "of P"]

/-- The description is first inherited through the last declaration, and gives way to the one that
was declared before it; the very first declaration does not ask for prose. -/
theorem Resolution.text_prose_of_documented_backwards :
    (∀ d ∈ backwards, d.IsFresh) ∧ DistinctNames backwards ∧
      (runAll .standard backwards).2 = none ∧ 0 ∈ documented .standard backwards ∧
      ((((Run.start backwards).doclet 0).prose .description).content <|>
        (recorded .standard backwards 0).findSome?
          ((runAll .standard backwards).1.offeredProse .description) <|>
        (((Run.start backwards).doclet 0).prose .description).text) = some "of A" := by
  have hfresh : ∀ d ∈ backwards, d.IsFresh := by
    simp [backwards, Doclet.isFresh_tagged, Doclet.IsFresh.described]
  have hnames : DistinctNames backwards := by decide
  have hid : 0 ∈ documented .standard backwards := by decide
  have hnone : (runAll .standard backwards).2 = none :=
    snd_runAll Settings.canJoin_standard backwards
  have htext : (((runAll .standard backwards).1.doclet 0).prose .description).text =
      some (Text.ofString "of A") := by cbv
  refine ⟨hfresh, hnames, hnone, hid, ?_⟩
  rw [← text_prose_of_documented hfresh hnames (Prod.ext rfl hnone) hid .description]
  exact htext

end DocLineage
