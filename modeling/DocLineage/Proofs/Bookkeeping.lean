import DocLineage.CommandLine.Resolve
import DocLineage.Proofs.RoundTrip

/-!
# What is left waiting, as it is written and as it is reported

A doclet that is left waiting is listed in the report, and what it waits for is written with it. The
report goes by what is pending. What is written goes over the mapping that the doclet was read from,
and takes nothing from it; so a dump that was written before, when a doclet was waiting, still says
so after a run in which the doclet is complete.

## Main definitions

* `Doclet.carried` — what the written dump says about doclets that wait
* `Unresolved.listed` — what the report says about them

## Main results

* `Doclet.carried_eq_iff` — both say the same exactly if no complete doclet was read with a list of
  what it waits for
* `Resolution.bookkeeping_written` — what a resolution writes, and what it reports
-/

namespace DocLineage

/-- What a written dump says about doclets that wait: each doclet that carries a list of what it
waits for, with the list. -/
def Doclet.carried (doclets : List Doclet) : List (Option Text × Value) :=
  doclets.filterMap fun d => (d.toMapping.get? "unresolvedInherits").map fun v => (d.label, v)

/-- What a report says about doclets that wait. -/
def Unresolved.listed (entries : List Unresolved) : List (Option Text × Value) :=
  entries.map fun u => (u.doclet, Value.ofTexts u.waitingOn)

namespace Doclet

variable {d : Doclet} {doclets : List Doclet}

/-- What a doclet waits for is written, and what it was read with if it waits for nothing. -/
theorem get?_toMapping_unresolved : d.toMapping.get? "unresolvedInherits" =
    if d.pending = [] then d.raw.get? "unresolvedInherits"
    else some (Value.ofTexts (d.pending.map PendingAncestor.identity)) := by
  have hmem : (Text.ofString "unresolvedInherits",
      if d.pending.isEmpty then none
      else some (Value.ofTexts (d.pending.map PendingAncestor.identity))) ∈ d.layers := by
    simp [layers]
  rw [get?_toMapping hmem]
  by_cases hnil : d.pending = []
  · rw [if_pos hnil, hnil]
    rfl
  · rw [if_neg hnil, if_neg (by simpa using hnil), Option.some_or]

/-- The mark is written if it is set, and what the doclet was read with otherwise. -/
theorem get?_toMapping_paramsOnly : d.toMapping.get? "inheritParamsOnly" =
    if d.inheritParamsOnly then some (.bool true) else d.raw.get? "inheritParamsOnly" := by
  have hmem : (Text.ofString "inheritParamsOnly",
      if d.inheritParamsOnly then some (Value.bool true) else none) ∈ d.layers := by
    simp [layers]
  rw [get?_toMapping hmem]
  cases d.inheritParamsOnly <;> rfl

/-- If whatever the second of two functions yields the first one yields as well, they pick the same
from a list exactly if the first one yields nothing else. -/
theorem filterMap_eq_iff {α β : Type} {f g : α → Option β} {l : List α}
    (h : ∀ a b, g a = some b → f a = some b) :
    l.filterMap f = l.filterMap g ↔ ∀ a ∈ l, g a = none → f a = none := by
  constructor
  · intro heq
    induction l with
    | nil => exact nofun
    | cons a l ih =>
      cases hg : g a with
      | some b =>
        rw [List.filterMap_cons_some (h a b hg), List.filterMap_cons_some hg] at heq
        intro x hx hnone
        rcases List.mem_cons.mp hx with rfl | hx
        · cases hg.symm.trans hnone
        · exact ih (List.cons.inj heq).2 x hx hnone
      | none =>
        cases hf : f a with
        | none =>
          rw [List.filterMap_cons_none hf, List.filterMap_cons_none hg] at heq
          intro x hx hnone
          rcases List.mem_cons.mp hx with rfl | hx
          · exact hf
          · exact ih heq x hx hnone
        | some b =>
          -- the first function would pick more than the second one
          rw [List.filterMap_cons_some hf, List.filterMap_cons_none hg] at heq
          have hlength := congrArg List.length heq
          rw [List.length_cons, List.length_filterMap_eq_countP,
            List.length_filterMap_eq_countP] at hlength
          have hle : l.countP (fun a => (g a).isSome) ≤ l.countP fun a => (f a).isSome := by
            refine List.countP_mono_left fun x _ hx => ?_
            obtain ⟨b, hb⟩ := Option.isSome_iff_exists.mp hx
            rw [h x b hb]
            rfl
          omega
  · intro hnone
    refine List.filterMap_congr fun a ha => ?_
    cases hg : g a with
    | some b => exact h a b hg
    | none => exact hnone a ha hg

/-- What is written and what is reported about doclets that wait is the same exactly if no complete
doclet was read with a list of what it waits for. -/
theorem carried_eq_iff : carried doclets = Unresolved.listed (Report.waiting doclets) ↔
    ∀ d ∈ doclets, d.pending = [] → d.raw.get? "unresolvedInherits" = none := by
  have hlisted : Unresolved.listed (Report.waiting doclets) = doclets.filterMap fun d =>
      if d.pending = [] then none
      else some (d.label, Value.ofTexts (d.pending.map PendingAncestor.identity)) := by
    rw [Unresolved.listed, Report.waiting, List.map_filterMap]
    refine List.filterMap_congr fun d _ => ?_
    unfold isComplete
    cases d.pending <;> rfl
  rw [hlisted, carried, filterMap_eq_iff]
  · refine forall_congr' fun d => forall_congr' fun _ => ?_
    rw [get?_toMapping_unresolved]
    by_cases hnil : d.pending = [] <;> simp [hnil]
  · intro d entry hentry
    rw [get?_toMapping_unresolved]
    by_cases hnil : d.pending = []
    · rw [if_pos hnil] at hentry
      cases hentry
    · rw [if_neg hnil] at hentry ⊢
      exact hentry

end Doclet

/-! ### One resolution -/

/-- Whatever happens to a doclet in a run, it keeps the mapping that it was read from. -/
theorem Doclet.persistent_raw (settings : Settings) (raw : DocletId → Mapping) :
    Persistent settings fun id d => d.raw = raw id where
  links hd hlinks := by rw [hlinks.declares.eq]; exact hd
  inherit mode _ hd _ := by cases mode <;> exact hd
  pending _ hd := hd

namespace Resolution

variable {config : Config} {doclets : List Doclet} {raws : List Mapping}

/-- A resolution leaves every doclet with the mapping that it was read from. -/
theorem forall₂_raw {report : Option Report} (hread : (Dump.read raws).1 = .ok doclets) :
    List.Forall₂ (fun raw d => d.raw = raw) raws (resolve config doclets report).doclets := by
  refine forall₂_resolve hread (fun raw d hraw => (Doclet.Reads.of_ofMapping hraw).raw) ?_
  intro settings _ id raw hraw
  have hfresh : ∀ d ∈ doclets, d.IsFresh := fun d hd =>
    (Dump.isLoaded_of_read hread d hd).isFresh
  have hsame := (Doclet.persistent_raw settings fun x => ((Run.start doclets).doclet x).raw).runAll
    hfresh (fun _ => rfl) id
  rw [hsame]
  exact (Doclet.Reads.of_ofMapping hraw).raw

/-- A resolution without a fault adds the doclets that are left waiting to the report. -/
theorem report_resolve {report : Report} (h : (resolve config doclets (some report)).fault = none) :
    ∃ report', (resolve config doclets (some report)).report = some report' ∧
      report'.unresolved = report.unresolved ++
        Report.waiting (resolve config doclets (some report)).doclets := by
  rw [doclets_resolve]
  unfold resolve at h ⊢
  cases hsettings : Settings.ofConfig config with
  | error fault =>
    rw [hsettings] at h
    cases h
  | ok settings =>
    rw [hsettings] at h
    dsimp only at h ⊢
    rw [h]
    exact ⟨_, rfl, rfl⟩

end Resolution

/-! ### The command -/

namespace CommandLine

/-- A command that yields something has run its first step to the end, and then the rest. -/
theorem Command.exists_of_bind_eq_ok {α β : Type} {x : Command α} {f : α → Command β}
    {w w' : World} {b : β} (h : (x >>= f) w = (.ok b, w')) :
    ∃ a w'', x w = (.ok a, w'') ∧ f a w'' = (.ok b, w') := by
  have hbind : (x >>= f) w = ExceptT.bindCont f (x w).1 (x w).2 := rfl
  rw [hbind] at h
  cases hx : x w with
  | mk outcome w'' =>
    rw [hx] at h
    cases outcome with
    | error ending => cases h
    | ok a => exact ⟨a, w'', rfl, h⟩

variable {config : Config} {report report' : Report} {doclets : List Doclet} {w w' : World}

/-- The report of one group of dumps lists the doclets that are left waiting, in order. -/
theorem unresolved_resolveGroup {dumps : List Path}
    (h : resolveGroup config report dumps w = (.ok (doclets, report'), w')) :
    report'.unresolved = report.unresolved ++ Report.waiting doclets := by
  obtain ⟨storage, w₁, -, h⟩ := Command.exists_of_bind_eq_ok h
  generalize Dump.loadAll storage dumps = loading at h
  obtain ⟨loaded, notices⟩ := loading
  obtain ⟨-, w₂, -, h⟩ := Command.exists_of_bind_eq_ok h
  obtain ⟨found, w₃, -, h⟩ := Command.exists_of_bind_eq_ok h
  obtain ⟨-, w₄, -, h⟩ := Command.exists_of_bind_eq_ok h
  obtain ⟨-, w₅, -, h⟩ := Command.exists_of_bind_eq_ok h
  obtain ⟨_, w₆, hcheck, h⟩ := Command.exists_of_bind_eq_ok h
  have hfault : (Resolution.resolve config found (some report)).fault = none := by
    cases hfault : (Resolution.resolve config found (some report)).fault with
    | none => rfl
    | some fault =>
      rw [hfault] at hcheck
      cases hcheck
  obtain ⟨report'', hreport, hunresolved⟩ := Resolution.report_resolve hfault
  rw [hreport] at h
  cases h
  exact hunresolved

/-- So does the report of all of them, and what is counted in the end is how many doclets are left
waiting. -/
theorem unresolved_resolveGroups {groups : List (List Path)}
    (h : resolveGroups config report groups w = (.ok (doclets, report'), w')) :
    report'.unresolved = report.unresolved ++ Report.waiting doclets := by
  induction groups generalizing report doclets w with
  | nil =>
    cases h
    exact (List.append_nil _).symm
  | cons group groups ih =>
    obtain ⟨⟨first, report₁⟩, w₁, hfirst, h⟩ := Command.exists_of_bind_eq_ok h
    obtain ⟨⟨more, report₂⟩, w₂, hmore, h⟩ := Command.exists_of_bind_eq_ok h
    cases h
    rw [ih hmore, unresolved_resolveGroup hfirst, List.append_assoc, Report.waiting,
      Report.waiting, Report.waiting, List.filterMap_append]

end CommandLine

namespace Resolution

variable {config : Config} {doclets : List Doclet} {raws : List Mapping} {report : Option Report}

/-- What a resolution writes about doclets that wait is what it reports, and the mark is written if
it is set; but what a doclet was read with is written again where there is nothing else to write.
So the written dump carries the entries of the report exactly if no complete doclet was read with a
list of what it waits for. -/
theorem bookkeeping_written (hread : (Dump.read raws).1 = .ok doclets) :
    List.Forall₂ (fun raw d =>
      d.toMapping.get? "unresolvedInherits" =
        (if d.pending = [] then raw.get? "unresolvedInherits"
        else some (Value.ofTexts (d.pending.map PendingAncestor.identity))) ∧
      d.toMapping.get? "inheritParamsOnly" =
        if d.inheritParamsOnly then some (.bool true) else raw.get? "inheritParamsOnly")
      raws (resolve config doclets report).doclets ∧
    (Doclet.carried (resolve config doclets report).doclets =
        Unresolved.listed (Report.waiting (resolve config doclets report).doclets) ↔
      List.Forall₂ (fun raw d => d.pending = [] → raw.get? "unresolvedInherits" = none)
        raws (resolve config doclets report).doclets) ∧
    (∀ r, report = some r → (resolve config doclets report).fault = none →
      ∃ r', (resolve config doclets report).report = some r' ∧
        r'.unresolved = r.unresolved ++ Report.waiting (resolve config doclets report).doclets) ∧
    ∀ r groups w found r' w',
      CommandLine.resolveGroups config r groups w = (.ok (found, r'), w') →
        r'.unresolved = r.unresolved ++ Report.waiting found := by
  have hraw : List.Forall₂ (fun raw d => d.raw = raw) raws
    (resolve config doclets report).doclets := forall₂_raw hread
  refine ⟨?_, ?_, ?_, ?_⟩
  · refine hraw.imp fun raw d hd => ?_
    rw [← hd]
    exact ⟨Doclet.get?_toMapping_unresolved, Doclet.get?_toMapping_paramsOnly⟩
  · rw [Doclet.carried_eq_iff]
    obtain ⟨hlength, hget⟩ := List.forall₂_iff_get.mp hraw
    constructor
    · intro hnone
      rw [List.forall₂_iff_get]
      refine ⟨hlength, fun id hid hid' hnil => ?_⟩
      rw [← hget id hid hid']
      exact hnone _ (List.getElem_mem hid') hnil
    · intro hnone d hd hnil
      obtain ⟨id, hid, rfl⟩ := List.getElem_of_mem hd
      have hid' : id < raws.length := hlength ▸ hid
      have hsame := hget id hid' hid
      change (resolve config doclets report).doclets[id].raw = _ at hsame
      rw [hsame]
      exact (List.forall₂_iff_get.mp hnone).2 id hid' hid hnil
  · rintro r rfl hfault
    exact report_resolve hfault
  · exact fun _ _ _ _ _ _ h => CommandLine.unresolved_resolveGroups h

/-- A doclet that inherits from another one, as it is written when it is resolved on its own, and
the other one. -/
def rejoinedDump : List Mapping := [
  [(.text "longname", .text "D"),
    (.text "tags", .list
      [.map [(.text "title", .text "inheritdoc"), (.text "value", .text "A")]]),
    (.text "see", Value.ofTexts ["A"]),
    (.text "unresolvedInherits", Value.ofTexts ["A"])],
  [(.text "longname", .text "A")]]

/-- The doclets that are read. -/
def rejoined : List Doclet := rejoinedDump.filterMap fun raw => (Doclet.ofMapping raw).toOption

theorem read_rejoined : (Dump.read rejoinedDump).1 = .ok rejoined :=
  Dump.read_filterMap (by decide +kernel)

/-- The doclet is complete, and yet it is written with what it was waiting for. -/
theorem values_rejoined : (resolve Config.defaults rejoined none).doclets.map (fun d =>
    (d.pending.isEmpty, d.toMapping.get? "unresolvedInherits")) =
      [(true, some (.list [.text "A"])), (true, none)] := by
  cbv

/-- A list of what a doclet was waiting for is written again when the doclet is complete, and the
report does not list the doclet. -/
theorem bookkeeping_written_rejoined : (Dump.read rejoinedDump).1 = .ok rejoined ∧
    Doclet.carried (resolve Config.defaults rejoined none).doclets ≠
      Unresolved.listed (Report.waiting (resolve Config.defaults rejoined none).doclets) := by
  refine ⟨read_rejoined, fun hsame => ?_⟩
  obtain ⟨-, hcarried, -⟩ :=
    @bookkeeping_written Config.defaults rejoined rejoinedDump none read_rejoined
  have hvalues := values_rejoined
  cases hdoclets : (resolve Config.defaults rejoined none).doclets with
  | nil =>
    rw [hdoclets] at hvalues
    cases hvalues
  | cons d ds =>
    have hnone := hcarried.mp hsame
    rw [hdoclets, List.map_cons, List.cons.injEq, Prod.mk.injEq] at hvalues
    rw [hdoclets] at hnone
    obtain ⟨hfirst, -⟩ := List.forall₂_cons.mp hnone
    cases hfirst (List.isEmpty_iff.mp hvalues.1.1)

/-- It is not so that the doclets that are written with a list of what they wait for are those that
wait for something. -/
theorem not_bookkeeping_written : ¬∀ (config : Config) (raws : List Mapping)
    (doclets : List Doclet) (report : Option Report), (Dump.read raws).1 = .ok doclets →
    ∀ d ∈ (resolve config doclets report).doclets,
      (d.toMapping.get? "unresolvedInherits").isSome = true ↔ d.pending ≠ [] := by
  intro hall
  have hvalues := values_rejoined
  cases hdoclets : (resolve Config.defaults rejoined none).doclets with
  | nil =>
    rw [hdoclets] at hvalues
    cases hvalues
  | cons d ds =>
    have hd : d ∈ (resolve Config.defaults rejoined none).doclets := by
      rw [hdoclets]
      exact List.mem_cons_self
    rw [hdoclets, List.map_cons, List.cons.injEq, Prod.mk.injEq] at hvalues
    have hiff := hall Config.defaults rejoinedDump rejoined none read_rejoined d hd
    refine hiff.mp ?_ (List.isEmpty_iff.mp hvalues.1.1)
    rw [hvalues.1.2]
    rfl

end Resolution

end DocLineage
