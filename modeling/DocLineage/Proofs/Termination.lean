import DocLineage.Proofs.SourceOrder
import Mathlib

/-!
# Every call returns

Taking up a doclet may complete it, completing it takes up the doclets that waited for its name, and
each of them may be completed in turn before the next one is taken up. Here the calls are described
as they are made, without an agenda: what a call returns and which other calls it makes are
relations, so that nothing is assumed to come to an end. Names may repeat, doclets may wait for
themselves or for each other, and a doclet may be taken up again long after it was completed.

A call returns since every call that it makes has a lower rank. A completion under a new name leaves
fewer doclets whose name is open; one under a name that is complete already can only wake doclets
that were parked there, and these are not replaced; and otherwise there is less left to wake. In a
state that a run reaches more can be said: a declared ancestor wakes its doclet once at most.

## Main definitions

* `Call`, `Call.Returns`, `Call.Makes` — the calls, what they return, and the calls that they make
* `Run.Arrives` — the arrival of a doclet that has its tags applied, with the call that it makes
* `Call.rank` — what goes down from call to call
* `Run.dormant` — the declarations that can still wake their doclets

## Main results

* `Call.wellFounded_makes` — no chain of calls is infinite
* `Call.exists_returns`, `Call.Returns.unique` — every call returns, and in one way only
* `Execution.length_passes_le` — there are no more passes than arrivals and declarations
* `Run.exists_arrives` — every arrival returns, and how much it sets off in a state of a run
-/

namespace DocLineage

/-- A call in the course of a run. -/
inductive Call where
  /-- A doclet is taken up. -/
  | process (id : DocletId)
  /-- A doclet is complete. -/
  | complete (id : DocletId)
  /-- Doclets that were set free are taken up one after the other. -/
  | wakeAll (ws : List Wake)

namespace Call

variable {placeholder : Value} {r r' r'' : Run} {c c' : Call} {id : DocletId} {w : Wake}
  {ws : List Wake} {n n' d d' : Nat}

/-- What a call returns: the run is another one then, and on the way some number of doclets were
taken up, nested to some depth. -/
inductive Returns (placeholder : Value) : Run → Call → Nat → Nat → Run → Prop
  /-- A doclet that still waits for something is left alone. -/
  | rest {r : Run} {id : DocletId} :
      ((r.pass placeholder id).doclet id).isComplete = false →
      Returns placeholder r (.process id) 1 1 (r.pass placeholder id)
  /-- A doclet that waits for nothing any more is completed. -/
  | finish {r r' : Run} {id : DocletId} {n d : Nat} :
      ((r.pass placeholder id).doclet id).isComplete = true →
      Returns placeholder (r.pass placeholder id) (.complete id) n d r' →
      Returns placeholder r (.process id) (n + 1) (d + 1) r'
  /-- A completion sets free what waited for the doclet. -/
  | settle {r r' : Run} {id : DocletId} {n d : Nat} :
      Returns placeholder (r.settle id).1 (.wakeAll (r.settle id).2) n d r' →
      Returns placeholder r (.complete id) n d r'
  | nil {r : Run} : Returns placeholder r (.wakeAll []) 0 0 r
  /-- The first one is taken up, with all that this sets off, and then the others. -/
  | cons {r r' r'' : Run} {w : Wake} {ws : List Wake} {n n' d d' : Nat} :
      Returns placeholder (r.note (.woken (r.doclet w.waiter).label w.ancestor))
        (.process w.waiter) n d r' →
      Returns placeholder r' (.wakeAll ws) n' d' r'' →
      Returns placeholder r (.wakeAll (w :: ws)) (n + n') (max d d') r''

/-- A call makes another one before it returns. -/
inductive Makes (placeholder : Value) : Run × Call → Run × Call → Prop
  | finish {r : Run} {id : DocletId} :
      ((r.pass placeholder id).doclet id).isComplete = true →
      Makes placeholder (r, .process id) (r.pass placeholder id, .complete id)
  | settle {r : Run} {id : DocletId} :
      Makes placeholder (r, .complete id) ((r.settle id).1, .wakeAll (r.settle id).2)
  | first {r : Run} {w : Wake} {ws : List Wake} :
      Makes placeholder (r, .wakeAll (w :: ws))
        (r.note (.woken (r.doclet w.waiter).label w.ancestor), .process w.waiter)
  /-- The others are taken up in the state that the first one leaves, if it comes to an end. -/
  | others {r r' : Run} {w : Wake} {ws : List Wake} {n d : Nat} :
      Returns placeholder (r.note (.woken (r.doclet w.waiter).label w.ancestor))
        (.process w.waiter) n d r' →
      Makes placeholder (r, .wakeAll (w :: ws)) (r', .wakeAll ws)

/-- What goes down from call to call: the doclets whose name is open, then the doclets that can be
woken without a new name, and then the way from one doclet to those that it wakes. -/
def rank (r : Run) : Call → Nat × Nat × Nat
  | .process _ => (r.openNames, r.owed, 2)
  | .complete _ => (r.openNames, r.owed, 1)
  | .wakeAll ws => (r.openNames, r.owed + ws.length, 0)

/-- What a call comes to: the run when all that it sets off is over. -/
def outcome (placeholder : Value) (r : Run) : Call → Run
  | .process id => r.process placeholder id
  | .complete id => r.complete placeholder id
  | .wakeAll ws => r.cascade placeholder ws

/-! ### Ranks -/

/-- A call opens no name, and parks no one under a name that is complete. -/
theorem Returns.lowers (h : Returns placeholder r c n d r') :
    r'.openNames < r.openNames ∨ r'.openNames = r.openNames ∧ r'.owed ≤ r.owed := by
  induction h with
  | rest _ => exact Or.inr ⟨Run.openNames_pass .., (Run.owed_pass ..).le⟩
  | finish _ _ ih =>
    rw [Run.openNames_pass, Run.owed_pass] at ih
    exact ih
  | @settle r r' id _ _ _ ih =>
    have hsettle := r.settle_lowers id
    omega
  | nil => exact Or.inr ⟨rfl, Nat.le_refl _⟩
  | cons _ _ ih ih' =>
    rw [Run.openNames_note, Run.owed_note] at ih
    omega

/-- A call that is made by another one has a lower rank. -/
theorem Makes.lowers (h : Makes placeholder (r, c) (r', c')) :
    Prod.Lex (· < ·) (Prod.Lex (· < ·) (· < ·)) (c'.rank r') (c.rank r) := by
  simp only [Prod.lex_def]
  cases h with
  | finish _ =>
    rw [rank, rank, Run.openNames_pass, Run.owed_pass]
    exact Or.inr ⟨rfl, Or.inr ⟨rfl, Nat.lt_succ_self 1⟩⟩
  | @settle _ id =>
    -- either a name is new, or whoever is woken was owed before and is not any more
    have hsettle := r.settle_lowers id
    simp only [rank]
    omega
  | first =>
    simp only [rank, Run.openNames_note, Run.owed_note, List.length_cons]
    exact Or.inr ⟨trivial, Or.inl (by omega)⟩
  | others hreturns =>
    -- whatever the first one has set off, there is one less to be woken
    have hfirst := hreturns.lowers
    simp only [rank, Run.openNames_note, Run.owed_note, List.length_cons] at hfirst ⊢
    omega

/-- No chain of calls is infinite. -/
theorem wellFounded_makes (placeholder : Value) :
    WellFounded fun callee caller => Makes placeholder caller callee := by
  have hlex : WellFounded (Prod.Lex (· < ·) (Prod.Lex (· < ·) (· < ·)) :
      Nat × Nat × Nat → Nat × Nat × Nat → Prop) :=
    (Prod.lex ⟨_, wellFounded_lt⟩ (Prod.lex ⟨_, wellFounded_lt⟩ ⟨_, wellFounded_lt⟩)).wf
  exact Subrelation.wf (fun h => Makes.lowers h)
    (InvImage.wf (fun x : Run × Call => x.2.rank x.1) hlex)

/-! ### Every call returns -/

/-- A call returns in one way only. -/
theorem Returns.unique (h : Returns placeholder r c n d r')
    (h' : Returns placeholder r c n' d' r'') : n = n' ∧ d = d' ∧ r' = r'' := by
  induction h generalizing n' d' r'' with
  | rest hrest =>
    cases h' with
    | rest => exact ⟨rfl, rfl, rfl⟩
    | finish hfinish => rw [hrest] at hfinish; cases hfinish
  | finish hfinish _ ih =>
    cases h' with
    | rest hrest => rw [hrest] at hfinish; cases hfinish
    | finish _ h' =>
      obtain ⟨rfl, rfl, rfl⟩ := ih h'
      exact ⟨rfl, rfl, rfl⟩
  | settle _ ih =>
    cases h' with
    | settle h' => exact ih h'
  | nil =>
    cases h' with
    | nil => exact ⟨rfl, rfl, rfl⟩
  | cons _ _ ih ih' =>
    cases h' with
    | cons hfirst hothers =>
      obtain ⟨rfl, rfl, rfl⟩ := ih hfirst
      obtain ⟨rfl, rfl, rfl⟩ := ih' hothers
      exact ⟨rfl, rfl, rfl⟩

end Call

namespace Run

variable {placeholder : Value} {r : Run} {id : DocletId}

/-- An agenda is worked off from the front. -/
theorem cascade_append (ws ws' : List Wake) : r.cascade placeholder (ws ++ ws') =
    (r.cascade placeholder ws).cascade placeholder ws' := by
  induction r, ws using Run.cascade.induct placeholder with
  | case1 r => rw [List.nil_append, cascade]
  | case2 r w ws ih =>
    rw [List.cons_append, cascade, ← List.append_assoc, ih]
    conv_rhs => rw [cascade]

/-- The front of an agenda is worked off as if it stood alone. -/
theorem cascade_cons (w : Wake) (ws : List Wake) : r.cascade placeholder (w :: ws) =
    ((r.note (.woken (r.doclet w.waiter).label w.ancestor)).process placeholder
      w.waiter).cascade placeholder ws := by
  rw [cascade, cascade_append]
  rfl

theorem advance_of_isComplete (h : ((r.pass placeholder id).doclet id).isComplete = true) :
    r.advance placeholder id = (r.pass placeholder id).settle id :=
  if_pos h

theorem advance_of_not_isComplete (h : ((r.pass placeholder id).doclet id).isComplete = false) :
    r.advance placeholder id = (r.pass placeholder id, []) :=
  if_neg (Bool.eq_false_iff.mp h)

end Run

namespace Call

variable {placeholder : Value} {r r' : Run} {c c' : Call} {n d : Nat}

/-- Every call returns, and what it returns is what it comes to. -/
theorem exists_returns (placeholder : Value) (r : Run) (c : Call) :
    ∃ n d, Returns placeholder r c n d (c.outcome placeholder r) := by
  induction hx : (r, c) using (wellFounded_makes placeholder).induction generalizing r c with
  | _ x ih =>
  subst hx
  cases c with
  | process id =>
    -- the pass decides whether the doclet is completed
    cases hcomplete : ((r.pass placeholder id).doclet id).isComplete with
    | false =>
      have houtcome : outcome placeholder r (.process id) = r.pass placeholder id := by
        simp only [outcome, Run.process, Run.advance_of_not_isComplete hcomplete, Run.cascade]
      rw [houtcome]
      exact ⟨1, 1, .rest hcomplete⟩
    | true =>
      have houtcome : outcome placeholder r (.process id) =
          outcome placeholder (r.pass placeholder id) (.complete id) := by
        rw [outcome, Run.process, Run.advance_of_isComplete hcomplete]
        rfl
      rw [houtcome]
      obtain ⟨n, d, h⟩ := ih _ (.finish hcomplete) _ _ rfl
      exact ⟨n + 1, d + 1, .finish hcomplete h⟩
  | complete id =>
    obtain ⟨n, d, h⟩ := ih _ .settle _ _ rfl
    exact ⟨n, d, .settle h⟩
  | wakeAll ws =>
    cases ws with
    | nil =>
      rw [outcome, Run.cascade]
      exact ⟨0, 0, .nil⟩
    | cons w ws =>
      rw [outcome, Run.cascade_cons]
      -- the first one has to return before it is known where the others start
      obtain ⟨n, d, hfirst⟩ := ih _ .first _ _ rfl
      obtain ⟨n', d', hothers⟩ := ih _ (.others hfirst) _ _ rfl
      exact ⟨n + n', max d d', .cons hfirst hothers⟩

end Call

/-! ### How much a call sets off -/

/-- The doclets that have arrived, each under every ancestor that it has declared. -/
def declaredWakes (as : List Arrival) : List Wake :=
  as.flatMap fun a => a.declared.pending.map fun e => ⟨a.id, e.identity⟩

/-- The declarations that can still wake their doclets: those of names that are not complete. -/
def Run.dormant (as : List Arrival) (r : Run) : Nat :=
  (declaredWakes as).countP fun w => !r.registry.completed.contains w.ancestor

section Bounds

variable {settings : Settings} {placeholder : Value} {r₀ r r' : Run} {as : List Arrival}
  {ps : List Pass} {ws ws' : List Wake} {busy : Option DocletId} {id : DocletId} {c : Call}
  {n d : Nat}

theorem mem_declaredWakes {a : Arrival} {e : PendingAncestor} (ha : a ∈ as)
    (he : e ∈ a.declared.pending) : ⟨a.id, e.identity⟩ ∈ declaredWakes as :=
  List.mem_flatMap.mpr ⟨a, ha, List.mem_map.mpr ⟨e, he, rfl⟩⟩

@[simp] theorem Run.dormant_note (notice : Notice) : (r.note notice).dormant as = r.dormant as :=
  rfl

@[simp] theorem Run.dormant_pass : (r.pass placeholder id).dormant as = r.dormant as := by
  rw [dormant, completed_pass, dormant]

/-- A completion under a new name uses up the declarations of the name. -/
theorem Run.dormant_settle (hname : (r.doclet id).longname ≠ [])
    (hopen : r.registry.completed.contains (r.doclet id).longname = false) :
    ((declaredWakes as).filter fun w => w.ancestor = (r.doclet id).longname).length +
      (r.settle id).1.dormant as = r.dormant as := by
  have key := r.contains_completed_settle id hname
  rw [dormant, dormant, List.countP_eq_countP_filter_add (declaredWakes as)
    (fun w => !r.registry.completed.contains w.ancestor)
    fun w : Wake => w.ancestor = (r.doclet id).longname]
  congr 1
  · -- all declarations of the name could wake their doclets before
    symm
    rw [List.countP_eq_length]
    intro w hw
    rw [List.mem_filter, decide_eq_true_eq] at hw
    rw [hw.2, hopen]
    rfl
  · rw [List.countP_filter]
    apply List.countP_congr
    intro w _
    simp only [key]
    -- the declarations of other names are as they were
    grind

namespace Linked

/-- Whoever is listed under a name has declared it. -/
theorem length_waiters_le (h : Linked as r ws busy) (k : Text) : (r.registry.waiters k).length ≤
    ((declaredWakes as).filter fun w => w.ancestor = k).length := by
  obtain ⟨hnodup, hlisted⟩ := h.listed k
  have hinjective : Function.Injective fun id : DocletId => (⟨id, k⟩ : Wake) := by
    intro x y hxy
    exact congrArg Wake.waiter hxy
  have hsubset : (r.registry.waiters k).map (⟨·, k⟩) ⊆
      (declaredWakes as).filter fun w => w.ancestor = k := by
    intro w hw
    obtain ⟨x, hx, rfl⟩ := List.mem_map.mp hw
    obtain ⟨harrived, e, he, rfl⟩ := hlisted x hx
    obtain ⟨a, ha, rfl⟩ := List.mem_map.mp harrived
    obtain ⟨gone, -, hpending⟩ := h.pending a ha
    rw [hpending, List.mem_filter] at he
    exact List.mem_filter.mpr ⟨mem_declaredWakes ha he.1, decide_eq_true rfl⟩
  have hle := ((hnodup.map hinjective).subperm hsubset).length_le
  rwa [List.length_map] at hle

/-- Whoever is woken by a completion uses up a declaration, and only a new name wakes anyone. -/
theorem settle_wakes (h : Linked as r ws (some id)) :
    (r.settle id).2.length + (r.settle id).1.dormant as ≤ r.dormant as ∧
      ((r.settle id).2 ≠ [] → (r.settle id).1.openNames < r.openNames) := by
  by_cases hname : (r.doclet id).longname = []
  · simp only [Run.settle, hname, if_true]
    exact ⟨by simp [Run.dormant], by simp⟩
  · have hwoken : (r.settle id).2.length = (r.registry.waiters (r.doclet id).longname).length := by
      simp [Run.settle, hname]
    cases hopen : r.registry.completed.contains (r.doclet id).longname with
    | true =>
      -- no one waits for a name that is complete
      have hnil : (r.settle id).2 = [] := by
        simp [Run.settle, hname, h.not_mem_waiters hopen]
      refine ⟨?_, fun hne => absurd hnil hne⟩
      rw [hnil, List.length_nil, Nat.zero_add]
      apply List.countP_mono_left
      intro w _
      rw [r.contains_completed_settle id hname]
      simp
    | false =>
      refine ⟨?_, fun _ => r.openNames_settle_lt id hname hopen⟩
      rw [hwoken, ← Run.dormant_settle hname hopen]
      exact Nat.add_le_add_right (h.length_waiters_le _) _

/-- Whoever is woken by a step uses up a declaration. -/
theorem length_advance_add_dormant_le (h : Linked as r ws (some id)) :
    (r.advance placeholder id).2.length + (r.advance placeholder id).1.dormant as ≤
      r.dormant as := by
  cases hcomplete : ((r.pass placeholder id).doclet id).isComplete with
  | false => simp [Run.advance_of_not_isComplete hcomplete]
  | true =>
    have hpass : Linked as (r.pass placeholder id) ws (some id) := h.pass
    have hwakes := hpass.settle_wakes.1
    rw [Run.dormant_pass] at hwakes
    rw [Run.advance_of_isComplete hcomplete]
    exact hwakes

end Linked

/-- There are no more passes in a run than arrivals and declarations: every declaration wakes its
doclet once at most. -/
theorem Execution.length_passes_le (h : Execution settings r₀ as ps r ws busy) :
    ps.length + ws.length + busy.toList.length + r.dormant as ≤
      as.length + (declaredWakes as).length := by
  induction h with
  | begin => exact Nat.le_refl _
  | @declare as ps r r' id _ _ _ _ hdeclared ih =>
    -- only the new declarations are added, and at most all of them can wake the doclet
    have hnew : declaredWakes (as ++ [⟨id, r'.doclet id⟩]) =
        declaredWakes as ++ declaredWakes [⟨id, r'.doclet id⟩] := List.flatMap_append
    have hdormant : r'.dormant (as ++ [⟨id, r'.doclet id⟩]) ≤
        r.dormant as + (declaredWakes [⟨id, r'.doclet id⟩]).length := by
      rw [Run.dormant, hnew, List.countP_append,
        (Run.declares_of_declareAncestors hdeclared).completed]
      exact Nat.add_le_add_left List.countP_le_length _
    simp only [hnew, List.length_append, Option.toList_some, Option.toList_none,
      List.length_singleton, List.length_nil] at ih ⊢
    omega
  | takeUp _ ih =>
    simp only [List.length_cons, Option.toList_some, Option.toList_none, List.length_nil,
      Run.dormant_note] at ih ⊢
    omega
  | @advance as ps r ws id h ih =>
    have hstep : (r.advance settings.placeholder id).2.length +
        (r.advance settings.placeholder id).1.dormant as ≤ r.dormant as :=
      h.linked.length_advance_add_dormant_le
    simp only [List.length_append, Option.toList_some, Option.toList_none,
      List.length_singleton, List.length_nil] at ih ⊢
    omega

namespace Call

/-- A call is made in a run over fresh doclets, in some state of which what is left of the agenda is
to be worked off when the call returns. -/
inductive Due (settings : Settings) (r₀ : Run) (as : List Arrival) : Run → Call → List Wake → Prop
  | process {ps : List Pass} {r : Run} {ws : List Wake} {id : DocletId} :
      Execution settings r₀ as ps r ws (some id) → Due settings r₀ as r (.process id) ws
  | complete {ps : List Pass} {r : Run} {ws : List Wake} {id : DocletId} :
      Execution settings r₀ as ps r ws (some id) →
      ((r.pass settings.placeholder id).doclet id).isComplete = true →
      Due settings r₀ as (r.pass settings.placeholder id) (.complete id) ws
  | wakeAll {ps : List Pass} {r : Run} {ws ws' : List Wake} :
      Execution settings r₀ as ps r (ws ++ ws') none → Due settings r₀ as r (.wakeAll ws) ws'

/-- How many doclets a call takes up by itself. -/
def width : Call → Nat
  | .process _ => 1
  | .complete _ => 0
  | .wakeAll ws => ws.length

/-- How deep a call can be nested, when only a completion under a new name wakes anyone. -/
def reach (r : Run) : Call → Nat
  | .process _ => r.openNames + 1
  | .complete _ => r.openNames
  | .wakeAll [] => 0
  | .wakeAll (_ :: _) => r.openNames + 1

theorem reach_wakeAll_le : (wakeAll ws).reach r ≤ r.openNames + 1 := by
  cases ws with
  | nil => exact Nat.zero_le _
  | cons w ws => exact Nat.le_refl _

/-- Nothing is nested in a call that wakes no one. -/
theorem reach_wakeAll_le_of_lt {k : Nat} (h : ws ≠ [] → r.openNames < k) :
    (wakeAll ws).reach r ≤ k := by
  cases ws with
  | nil => exact Nat.zero_le _
  | cons w ws => exact h (List.cons_ne_nil w ws)

/-- In a run a call takes up no more doclets than it does by itself and than declarations are used
up by it, and it is nested no deeper than names can become complete. -/
theorem Returns.of_due (h : Returns settings.placeholder r c n d r')
    (hdue : Due settings r₀ as r c ws) : (∃ ps', Execution settings r₀ as ps' r' ws none) ∧
      n + r'.dormant as ≤ r.dormant as + c.width ∧ d ≤ c.reach r := by
  induction h generalizing ws with
  | rest hrest =>
    cases hdue with
    | process h =>
      have hadvance := h.advance
      rw [Run.advance_of_not_isComplete hrest] at hadvance
      refine ⟨⟨_, hadvance⟩, ?_, Nat.le_add_left 1 _⟩
      rw [Run.dormant_pass, Nat.add_comm]
      rfl
  | finish hfinish _ ih =>
    cases hdue with
    | process h =>
      obtain ⟨hafter, hn, hd⟩ := ih (.complete h hfinish)
      rw [Run.dormant_pass] at hn
      rw [reach, Run.openNames_pass] at hd
      simp only [width, reach] at hn ⊢
      exact ⟨hafter, by omega, by omega⟩
  | @settle _ _ id _ _ _ ih =>
    cases hdue with
    | @complete ps r ws _ h hcomplete =>
      have hadvance := h.advance
      rw [Run.advance_of_isComplete hcomplete] at hadvance
      obtain ⟨hafter, hn, hd⟩ := ih (.wakeAll hadvance)
      have hpass : Linked as (r.pass settings.placeholder id) ws (some id) := h.linked.pass
      obtain ⟨hwakes, hopen⟩ := hpass.settle_wakes
      simp only [width] at hn ⊢
      exact ⟨hafter, by omega, hd.trans (reach_wakeAll_le_of_lt hopen)⟩
  | nil =>
    cases hdue with
    | wakeAll h => exact ⟨⟨_, h⟩, Nat.le_of_eq (Nat.zero_add _), Nat.le_refl _⟩
  | @cons r r' _ _ _ _ _ _ _ hfirst _ ih ih' =>
    cases hdue with
    | wakeAll h =>
      obtain ⟨⟨ps', h'⟩, hn, hd⟩ := ih (.process h.takeUp)
      obtain ⟨hafter, hn', hd'⟩ := ih' (.wakeAll h')
      have hopen : r'.openNames ≤ r.openNames := by
        have hlowers := hfirst.lowers
        rw [Run.openNames_note] at hlowers
        omega
      simp only [width, Run.dormant_note, List.length_cons] at hn hn' ⊢
      have hothers := hd'.trans (reach_wakeAll_le.trans (Nat.add_le_add_right hopen 1))
      exact ⟨hafter, by omega, Nat.max_le.mpr ⟨hd, hothers⟩⟩

/-- What an arriving doclet calls for when its ancestors are declared. -/
def ofArrival (r : Run) (id : DocletId) : Call :=
  if (r.doclet id).isComplete then .complete id else .process id

theorem outcome_ofArrival :
    (ofArrival r id).outcome settings.placeholder r = r.receive settings id := by
  unfold ofArrival Run.receive
  split <;> rfl

/-- The call of a doclet that has just declared its ancestors is made in a run. -/
theorem due_ofArrival (h : Execution settings r₀ as ps r [] (some id)) :
    Due settings r₀ as r (ofArrival r id) [] := by
  unfold ofArrival
  split
  · next hcomplete =>
    have hpass : r.pass settings.placeholder id = r :=
      Run.pass_of_complete (List.isEmpty_iff.mp hcomplete)
    have hdue := Due.complete h (by rw [hpass]; exact hcomplete)
    rwa [hpass] at hdue
  · exact .process h

theorem width_ofArrival_le : (ofArrival r id).width ≤ 1 := by
  unfold ofArrival
  split
  · exact Nat.zero_le 1
  · exact Nat.le_refl 1

theorem reach_ofArrival_le : (ofArrival r id).reach r ≤ r.openNames + 1 := by
  unfold ofArrival
  split
  · exact Nat.le_succ _
  · exact Nat.le_refl _

end Call

/-! ### Arrivals -/

namespace Run

open Resolution (runBefore takesPart arrival)

/-- The override of a doclet is turned into ancestors, if one was declared. -/
def expandDeclared (settings : Settings) (r : Run) (id : DocletId) : Run × Option Fault :=
  if r.wantsExpansion id then r.expand settings id else (r, none)

/-- The arrival of a doclet that has its tags applied, with the number of doclets that are taken up
and the depth to which they are nested. A fault comes before anything is taken up. -/
inductive Arrives (settings : Settings) (r : Run) (id : DocletId) :
    Nat → Nat → Run × Option Fault → Prop
  | failed {r' : Run} {fault : Fault} :
      r.expandDeclared settings id = (r', some fault) →
      Arrives settings r id 0 0 (r', some fault)
  | returned {r' r'' : Run} {n d : Nat} :
      r.expandDeclared settings id = (r', none) →
      Call.Returns settings.placeholder r' (.ofArrival r' id) n d r'' →
      Arrives settings r id n d (r'', none)

theorem arrive_eq : r.arrive settings id =
    match r.expandDeclared settings id with
    | (r, some fault) => (r, some fault)
    | (r, none) => ((Call.ofArrival r id).outcome settings.placeholder r, none) := by
  simp only [arrive, expandDeclared, Call.outcome_ofArrival]
  split <;> rfl

/-- An arrival that returns does so in one way only. -/
theorem Arrives.unique {n' d' : Nat} {out out' : Run × Option Fault}
    (h : r.Arrives settings id n d out) (h' : r.Arrives settings id n' d' out') :
    n = n' ∧ d = d' ∧ out = out' := by
  cases h with
  | failed hfault =>
    cases h' with
    | failed hfault' => exact ⟨rfl, rfl, hfault.symm.trans hfault'⟩
    | returned hnone => cases hfault.symm.trans hnone
  | returned hnone hreturns =>
    cases h' with
    | failed hfault => cases hnone.symm.trans hfault
    | returned hnone' hreturns' =>
      cases hnone.symm.trans hnone'
      obtain ⟨rfl, rfl, rfl⟩ := hreturns.unique hreturns'
      exact ⟨rfl, rfl, rfl⟩

theorem exists_arrives_arrive (settings : Settings) (r : Run) (id : DocletId) :
    ∃ n d, r.Arrives settings id n d (r.arrive settings id) := by
  rw [arrive_eq]
  cases hdeclared : r.expandDeclared settings id with
  | mk r' fault =>
    cases fault with
    | some fault => exact ⟨0, 0, .failed hdeclared⟩
    | none =>
      obtain ⟨n, d, h⟩ := Call.exists_returns settings.placeholder r' (.ofArrival r' id)
      exact ⟨n, d, .returned hdeclared h⟩

/-- A doclet that arrives in a run takes up no more doclets than itself and those whose declarations
can still wake them, and nests them no deeper than there are open names. -/
theorem Arrives.le {out : Run × Option Fault}
    (harrives : (r.applyTags settings id).Arrives settings id n d out)
    (h : Execution settings r₀ as ps r [] none) (hid : id ∉ as.map Arrival.id)
    (hsize : id < r.doclets.size) (hfresh : (r.doclet id).IsFresh)
    (hdeclared : (r.declareAncestors settings id).1 = r') :
    n ≤ r'.dormant (as ++ [⟨id, r'.doclet id⟩]) + 1 ∧ d ≤ r'.openNames + 1 := by
  cases harrives with
  | failed => exact ⟨Nat.zero_le _, Nat.zero_le _⟩
  | @returned declared _ _ _ hnone hreturns =>
    have hall : r.declareAncestors settings id = (declared, none) := hnone
    obtain rfl : declared = r' := by rw [← hdeclared, hall]
    have hdue := Call.due_ofArrival (h.declare hid hsize hfresh hall)
    obtain ⟨-, hn, hd⟩ := hreturns.of_due hdue
    have hwidth : (Call.ofArrival declared id).width ≤ 1 := Call.width_ofArrival_le
    exact ⟨by omega, hd.trans Call.reach_ofArrival_le⟩

/-- Every call and every arrival returns, in any state whatever: no chain of calls is infinite, and
there is one run that is left and one number of doclets that are taken up. When a doclet arrives in
a run, that number is limited by the declarations that can still wake their doclets, and the depth
of the calls by the open names. -/
theorem exists_arrives (settings : Settings) :
    (WellFounded fun callee caller => Call.Makes settings.placeholder caller callee) ∧
    (∀ (r : Run) (c : Call), ∃ n d, ∀ n' d' r',
      Call.Returns settings.placeholder r c n' d' r' ↔
        n' = n ∧ d' = d ∧ r' = c.outcome settings.placeholder r) ∧
    (∀ (r : Run) (id : DocletId), ∃ n d, ∀ n' d' out,
      r.Arrives settings id n' d' out ↔ n' = n ∧ d' = d ∧ out = r.arrive settings id) ∧
    ∀ (r₀ r r' : Run) (as : List Arrival) (ps : List Pass) (id : DocletId),
      Execution settings r₀ as ps r [] none → id ∉ as.map Arrival.id → id < r.doclets.size →
      (r.doclet id).IsFresh → (r.declareAncestors settings id).1 = r' →
      ∀ n d out, (r.applyTags settings id).Arrives settings id n d out →
        n ≤ r'.dormant (as ++ [⟨id, r'.doclet id⟩]) + 1 ∧ d ≤ r'.openNames + 1 := by
  refine ⟨Call.wellFounded_makes _, ?_, ?_, ?_⟩
  · intro r c
    obtain ⟨n, d, h⟩ := Call.exists_returns settings.placeholder r c
    refine ⟨n, d, fun n' d' r' => ⟨fun h' => h'.unique h, ?_⟩⟩
    rintro ⟨rfl, rfl, rfl⟩
    exact h
  · intro r id
    obtain ⟨n, d, h⟩ := exists_arrives_arrive settings r id
    refine ⟨n, d, fun n' d' out => ⟨fun h' => h'.unique h, ?_⟩⟩
    rintro ⟨rfl, rfl, rfl⟩
    exact h
  · intro r₀ r r' as ps id h hid hsize hfresh hdeclared n d out harrives
    exact harrives.le h hid hsize hfresh hdeclared

/-- Two doclets that wait for a third one, the second of them for the first one as well. -/
def relay : List Doclet :=
  [.tagged "B" [⟨"inheritdoc", "A"⟩],
    .tagged "D" [⟨"inheritdoc", "A"⟩, ⟨"inheritparams", "B"⟩],
    .tagged "A" []]

/-- The run when the third doclet is about to arrive. -/
def relayed : Run := runBefore .standard relay 2

/-- The arrival of the third doclet completes the second one twice: once because the first one is
complete, and again as one that has waited for the third. Three declarations can wake a doclet. -/
theorem exists_arrives_relay : ∃ (as : List Arrival) (ps : List Pass),
    Execution .standard (start relay) as ps relayed [] none ∧ 2 ∉ as.map Arrival.id ∧
      2 < relayed.doclets.size ∧ (relayed.doclet 2).IsFresh ∧
      relayed.registry.waiters "A" = [0, 1] ∧ relayed.registry.waiters "B" = [1] ∧
      ∃ n d, (relayed.applyTags .standard 2).Arrives .standard 2 n d
          ((relayed.applyTags .standard 2).arrive .standard 2) ∧ n ≤ 4 ∧ d ≤ 4 := by
  have hfresh : ∀ d ∈ relay, d.IsFresh := by
    simp [relay, Doclet.isFresh_tagged]
  have hnone : ((start relay).feedAll .standard (List.range 2)).2 = none :=
    Resolution.snd_feedAll Settings.canJoin_standard _ _
  have hbounds : ((relayed.declareAncestors .standard 2).1.dormant
      (((List.range 2).filter (takesPart .standard relay)).map (arrival .standard relay) ++
        [⟨2, (relayed.declareAncestors .standard 2).1.doclet 2⟩]),
      (relayed.declareAncestors .standard 2).1.openNames, relayed.doclets.size,
      relayed.registry.waiters "A", relayed.registry.waiters "B") =
      (3, 3, 3, [0, 1], [1]) := by cbv
  simp only [Prod.mk.injEq] at hbounds
  obtain ⟨hdormant, hopen, hsize, hwaitersA, hwaitersB⟩ := hbounds
  have h := Resolution.execution_upTo hfresh (n := 2) (by decide) hnone
  have hid := Resolution.not_mem_arrivals_upTo .standard relay 2
  have hrange : 2 < relayed.doclets.size := by
    rw [hsize]
    decide
  have hfresh2 : (relayed.doclet 2).IsFresh := by
    rw [relayed, h.doclet_of_not_arrived hid]
    exact Doclet.isFresh_tagged ..
  obtain ⟨-, -, harrives, hle⟩ := exists_arrives .standard
  obtain ⟨n, d, hiff⟩ := harrives (relayed.applyTags .standard 2) 2
  have hreturned := (hiff n d _).mpr ⟨rfl, rfl, rfl⟩
  have hbound := hle _ _ _ _ _ _ h hid hrange hfresh2 rfl n d _ hreturned
  rw [← relayed, hdormant, hopen] at hbound
  exact ⟨_, _, h, hid, hrange, hfresh2, hwaitersA, hwaitersB, n, d, hreturned, hbound⟩

end Run

end Bounds

end DocLineage
