import DocLineage.Json.Writer
import DocLineage.Proofs.Loading
import DocLineage.Proofs.Lookup
import DocLineage.Proofs.NumberText
import Mathlib

/-!
# What a canonical text shows

Two values with one canonical text have the same kind and are set or not set alike, and if they are
mappings they have the same entries, as far as the texts of keys and values tell, in whatever order
they were written. A text between quotes, or between brackets, is read in one way only: whoever
reads on to the first comma that stands outside of both has read one part, neither more nor less.

## Main definitions

* `Json.phrase` — a text up to the first stop outside of quotes and brackets
* `Json.IsPhrase` — texts that are read as a whole, whatever follows
* `Value.IsPlain` — values of scalars, lists and mappings with different texts as keys
* `Json.kindOf`, `Json.isSet` — what the characters of a canonical text show

## Main results

* `Json.IsPhrase.cancel` — what is read as a whole is the same in two equal texts
* `Json.isPhrase_canonical` — canonical texts are read as a whole
* `Json.shows_canonical` — a canonical text shows the kind of a value and whether it is set
* `Json.exists_of_canonical_map_eq` — the entries of mappings with the same text
-/

namespace DocLineage

namespace Json

/-! ### Reading up to a stop -/

/-- Where in a text a character stands: outside of quotes, between them, or after a backslash
there. -/
inductive Mode where
  | bare
  | quoted
  | escaped

/-- The brackets that open a list or a mapping. -/
def isOpening (c : Char) : Bool := c == '[' || c == '\x7b'

/-- The brackets that close a list or a mapping. -/
def isClosing (c : Char) : Bool := c == ']' || c == '\x7d'

/-- Characters without a meaning of their own outside of quotes. -/
def isLoose (c : Char) : Bool := !(c == '"' || isOpening c || isClosing c)

/-- A text up to the first stop outside of quotes and brackets, or up to the first bracket that
closes what was not opened in it. -/
def phrase (stop : Char) (depth : Nat) (mode : Mode) : List Char → List Char
  | [] => []
  | c :: cs =>
    match mode with
    | .escaped => c :: phrase stop depth .quoted cs
    | .quoted =>
      c :: phrase stop depth
        (if c == '\\' then .escaped else if c == '"' then .bare else .quoted) cs
    | .bare =>
      if c == '"' then c :: phrase stop depth .quoted cs
      else if isOpening c then c :: phrase stop (depth + 1) .bare cs
      else if isClosing c then
        match depth with
        | 0 => []
        | depth + 1 => c :: phrase stop depth .bare cs
      else if c == stop && depth == 0 then []
      else c :: phrase stop depth .bare cs

/-- A text that is read as a whole, whatever follows, and whether brackets are open or not. -/
def IsPhrase (stop : Char) (t : List Char) : Prop :=
  ∀ depth r, phrase stop depth .bare (t ++ r) = t ++ phrase stop depth .bare r

/-- A text that is read as a whole between brackets. -/
def IsInner (stop : Char) (t : List Char) : Prop :=
  ∀ depth r, phrase stop (depth + 1) .bare (t ++ r) = t ++ phrase stop (depth + 1) .bare r

/-- A text at which reading comes to an end. -/
def Ends (stop : Char) (r : List Char) : Prop := phrase stop 0 .bare r = []

variable {stop c : Char} {s t t' r r' : List Char}

theorem IsPhrase.inner (h : IsPhrase stop t) : IsInner stop t := fun depth r => h (depth + 1) r

theorem IsPhrase.append (hs : IsPhrase stop s) (ht : IsPhrase stop t) : IsPhrase stop (s ++ t) := by
  intro depth r
  rw [List.append_assoc, hs, ht, List.append_assoc]

theorem IsInner.append (hs : IsInner stop s) (ht : IsInner stop t) : IsInner stop (s ++ t) := by
  intro depth r
  rw [List.append_assoc, hs, ht, List.append_assoc]

/-- What is read as a whole, up to where reading ends, is the same in two equal texts. -/
theorem IsPhrase.cancel (ht : IsPhrase stop t) (ht' : IsPhrase stop t') (hr : Ends stop r)
    (hr' : Ends stop r') (h : t ++ r = t' ++ r') : t = t' ∧ r = r' := by
  have hread : ∀ {t r : List Char}, IsPhrase stop t → Ends stop r →
      phrase stop 0 .bare (t ++ r) = t := by
    intro t r ht hr
    rw [ht, hr, List.append_nil]
  have heq : t = t' := by rw [← hread ht hr, h, hread ht' hr']
  subst heq
  exact ⟨rfl, List.append_cancel_left h⟩

/-! ### Texts that are read as a whole -/

theorem phrase_bare_cons {depth : Nat} : phrase stop depth .bare (c :: r) =
    if c == '"' then c :: phrase stop depth .quoted r
    else if isOpening c then c :: phrase stop (depth + 1) .bare r
    else if isClosing c then
      match depth with
      | 0 => []
      | depth + 1 => c :: phrase stop depth .bare r
    else if c == stop && depth == 0 then []
    else c :: phrase stop depth .bare r := rfl

theorem phrase_quoted_cons {depth : Nat} : phrase stop depth .quoted (c :: r) =
    c :: phrase stop depth
      (if c == '\\' then .escaped else if c == '"' then .bare else .quoted) r := rfl

theorem ends_nil : Ends stop [] := rfl

theorem ends_cons (h : isClosing c = true ∨ c = stop) (hloose : c ≠ '"' ∧ isOpening c = false) :
    Ends stop (c :: r) := by
  have hquote : (c == '"') = false := by simpa using hloose.1
  simp only [Ends, phrase_bare_cons, hquote, hloose.2, Bool.false_eq_true, if_false]
  rcases h with h | rfl
  · simp [h]
  · cases isClosing c <;> simp

theorem phrase_loose {depth : Nat} (hc : isLoose c = true) (h : c ≠ stop ∨ depth ≠ 0) :
    phrase stop depth .bare (c :: r) = c :: phrase stop depth .bare r := by
  have hc : (c == '"') = false ∧ isOpening c = false ∧ isClosing c = false := by
    simpa [isLoose, and_assoc] using hc
  have hstop : (c == stop && depth == 0) = false := by
    rcases h with h | h <;> simp [h]
  simp only [phrase_bare_cons, hc, hstop, Bool.false_eq_true, if_false]

theorem isInner_of_isLoose (h : t.all isLoose = true) : IsInner stop t := by
  intro depth r
  induction t with
  | nil => rfl
  | cons c cs ih =>
    rw [List.all_cons, Bool.and_eq_true] at h
    rw [List.cons_append, phrase_loose h.1 (Or.inr (Nat.succ_ne_zero depth)), ih h.2,
      List.cons_append]

theorem isPhrase_of_isLoose (h : t.all isLoose = true) (hstop : stop ∉ t) : IsPhrase stop t := by
  intro depth r
  induction t with
  | nil => rfl
  | cons c cs ih =>
    rw [List.all_cons, Bool.and_eq_true] at h
    rw [List.mem_cons, not_or] at hstop
    rw [List.cons_append, phrase_loose h.1 (Or.inl (Ne.symm hstop.1)), ih h.2 hstop.2,
      List.cons_append]

/-- What stands between brackets is read as a whole with them. -/
theorem isPhrase_bracketed {opening closing : Char} (hopening : isOpening opening = true)
    (hclosing : isClosing closing = true) (ht : IsInner stop t) :
    IsPhrase stop (opening :: t ++ [closing]) := by
  have hquote : (opening == '"') = false ∧ (closing == '"') = false ∧
      isOpening closing = false := by
    simp only [isOpening, isClosing, Bool.or_eq_true, beq_iff_eq] at hopening hclosing
    rcases hopening with rfl | rfl <;> rcases hclosing with rfl | rfl <;> decide
  intro depth r
  have hopen : phrase stop depth .bare (opening :: (t ++ (closing :: r))) =
      opening :: phrase stop (depth + 1) .bare (t ++ (closing :: r)) := by
    simp only [phrase_bare_cons, hquote, hopening, Bool.false_eq_true, if_false, if_true]
  have hclose : phrase stop (depth + 1) .bare (closing :: r) =
      closing :: phrase stop depth .bare r := by
    simp only [phrase_bare_cons, hquote, hclosing, Bool.false_eq_true, if_false, if_true]
  simp only [List.cons_append, List.append_assoc, List.nil_append, hopen, ht (depth), hclose]

/-- Characters between quotes that mean nothing there. -/
theorem phrase_quoted {depth : Nat} (h : t.all (fun c => c != '\\' && c != '"') = true) :
    phrase stop depth .quoted (t ++ r) = t ++ phrase stop depth .quoted r := by
  induction t with
  | nil => rfl
  | cons c cs ih =>
    rw [List.all_cons, Bool.and_eq_true] at h
    have hc : (c == '\\') = false ∧ (c == '"') = false := by simpa using h.1
    simp only [List.cons_append, phrase_quoted_cons, hc, Bool.false_eq_true, if_false, ih h.2]

/-- An escape of one character between quotes. -/
theorem phrase_escaped {depth : Nat} : phrase stop depth .quoted ('\\' :: c :: r) =
    '\\' :: c :: phrase stop depth .quoted r := by
  simp only [phrase_quoted_cons, beq_self_eq_true, if_true]
  rfl

theorem isHex_hexDigits (width n : Nat) :
    (Text.hexDigits width n).all (fun c => c != '\\' && c != '"') = true := by
  induction width generalizing n with
  | zero => rfl
  | succ width ih =>
    have hdigit : ∀ k : Fin 16, (fun c => c != '\\' && c != '"') (Nat.digitChar k) = true := by
      decide
    rw [Text.hexDigits, List.all_append, ih, Bool.true_and, List.all_cons, List.all_nil,
      Bool.and_true]
    exact hdigit ⟨n % 16, Nat.mod_lt n (by decide)⟩

theorem phrase_unitEscape {depth n : Nat} : phrase stop depth .quoted (unitEscape n ++ r) =
    unitEscape n ++ phrase stop depth .quoted r := by
  rw [unitEscape, List.cons_append, List.cons_append, phrase_escaped,
    phrase_quoted (isHex_hexDigits 4 n)]
  rfl

theorem phrase_escapeSymbol {depth : Nat} (x : Symbol) :
    phrase stop depth .quoted (escapeSymbol x ++ r) =
      escapeSymbol x ++ phrase stop depth .quoted r := by
  cases x with
  | half n => exact phrase_unitEscape
  | char c =>
    rw [escapeSymbol, escapeChar]
    split_ifs with hspecial
    case neg =>
      dsimp only
      split_ifs with hprintable
      · have hc : [c].all (fun c => c != '\\' && c != '"') = true := by
          simpa [and_comm] using hspecial
        exact phrase_quoted hc
      · exact phrase_unitEscape
      · rw [List.append_assoc, phrase_unitEscape, phrase_unitEscape, List.append_assoc]
    all_goals exact phrase_escaped

/-- A text between quotes is read as a whole. -/
theorem isPhrase_quote (x : Text) : IsPhrase stop (quote x).toList := by
  intro depth r
  have hbody : ∀ r, phrase stop depth .quoted (x.flatMap escapeSymbol ++ r) =
      x.flatMap escapeSymbol ++ phrase stop depth .quoted r := by
    intro r
    induction x with
    | nil => rfl
    | cons y ys ih =>
      rw [List.flatMap_cons, List.append_assoc, phrase_escapeSymbol, ih, List.append_assoc]
  have hopen : phrase stop depth .bare ('"' :: (x.flatMap escapeSymbol ++ ('"' :: r))) =
      '"' :: phrase stop depth .quoted (x.flatMap escapeSymbol ++ ('"' :: r)) := rfl
  have hclose : phrase stop depth .quoted ('"' :: r) = '"' :: phrase stop depth .bare r := rfl
  simp only [quote, String.toList_ofList, List.cons_append, List.append_assoc, List.nil_append,
    hopen, hbody, hclose]

/-! ### Parts between commas -/

variable {ps qs : List (List Char)}

theorem isInner_intercalate (h : ∀ p ∈ ps, IsInner stop p) :
    IsInner stop ([',', ' '].intercalate ps) := by
  have hcomma : IsInner stop [',', ' '] := isInner_of_isLoose (by decide)
  induction ps with
  | nil => exact fun _ _ => rfl
  | cons p ps ih =>
    cases ps with
    | nil =>
      rw [List.intercalate_singleton]
      exact h p List.mem_cons_self
    | cons q qs =>
      rw [List.intercalate_cons_cons]
      exact ((h p List.mem_cons_self).append hcomma).append
        (ih fun p' hp' => h p' (List.mem_cons_of_mem p hp'))

theorem intercalate_ne_nil {p : List Char} (h : p ≠ []) :
    [',', ' '].intercalate (p :: ps) ≠ [] := by
  cases ps with
  | nil =>
    rw [List.intercalate_singleton]
    exact h
  | cons q qs =>
    rw [List.intercalate_cons_cons]
    simp [h]

/-- Parts that are read as a whole up to a comma are the same in two equal texts. -/
theorem intercalate_inj (hps : ∀ p ∈ ps, IsPhrase ',' p ∧ p ≠ [])
    (hqs : ∀ q ∈ qs, IsPhrase ',' q ∧ q ≠ [])
    (h : [',', ' '].intercalate ps = [',', ' '].intercalate qs) : ps = qs := by
  -- after the first part there is a comma, unless it is the last one
  have hsplit : ∀ (p : List Char) (ps : List (List Char)), ∃ r, Ends ',' r ∧
      [',', ' '].intercalate (p :: ps) = p ++ r ∧
      (r = [] ∧ ps = [] ∨ r = ',' :: ' ' :: [',', ' '].intercalate ps ∧ ps ≠ []) := by
    intro p ps
    cases ps with
    | nil => exact ⟨[], ends_nil, by simp, Or.inl ⟨rfl, rfl⟩⟩
    | cons q qs =>
      refine ⟨_, ends_cons (Or.inr rfl) (by decide), ?_, Or.inr ⟨rfl, List.cons_ne_nil q qs⟩⟩
      rw [List.intercalate_cons_cons, List.append_assoc]
      rfl
  induction ps generalizing qs with
  | nil =>
    cases qs with
    | nil => rfl
    | cons q qs => exact absurd h.symm (intercalate_ne_nil (hqs q List.mem_cons_self).2)
  | cons p ps ih =>
    cases qs with
    | nil => exact absurd h (intercalate_ne_nil (hps p List.mem_cons_self).2)
    | cons q qs =>
      obtain ⟨r, hr, hp, hrest⟩ := hsplit p ps
      obtain ⟨r', hr', hq, hrest'⟩ := hsplit q qs
      rw [hp, hq] at h
      obtain ⟨rfl, rfl⟩ := (hps p List.mem_cons_self).1.cancel (hqs q List.mem_cons_self).1 hr hr' h
      congr 1
      rcases hrest with ⟨rfl, rfl⟩ | ⟨hcomma, -⟩
      · rcases hrest' with ⟨-, rfl⟩ | ⟨hcomma', -⟩
        · rfl
        · cases hcomma'
      · rcases hrest' with ⟨rfl, -⟩ | ⟨hcomma', -⟩
        · cases hcomma
        · rw [hcomma] at hcomma'
          simp only [List.cons.injEq, true_and] at hcomma'
          exact ih (fun p' hp' => hps p' (List.mem_cons_of_mem p hp'))
            (fun q' hq' => hqs q' (List.mem_cons_of_mem p hq')) hcomma'

/-! ### Writing lists and mappings -/

/-- What is done to the items of a list one after the other, if all of it succeeds. -/
theorem forall₂_of_mapM {α β : Type} {f : α → Except Fault β} {l : List α} {l' : List β}
    (h : l.mapM f = .ok l') : List.Forall₂ (fun a b => f a = .ok b) l l' := by
  induction l generalizing l' with
  | nil =>
    cases h
    exact .nil
  | cons a as ih =>
    rw [List.mapM_cons, Doclet.bind_eq_ok_iff] at h
    obtain ⟨b, hb, h⟩ := h
    rw [Doclet.bind_eq_ok_iff] at h
    obtain ⟨bs, hbs, h⟩ := h
    cases h
    exact .cons hb (ih hbs)

theorem forall₂_canonicalItems {items : List Value} {parts : List String}
    (h : canonicalItems [] items = .ok parts) :
    List.Forall₂ (fun v part => canonical v = .ok part) items parts := by
  induction items generalizing parts with
  | nil =>
    cases h
    exact .nil
  | cons v vs ih =>
    rw [canonicalItems, Doclet.bind_eq_ok_iff] at h
    obtain ⟨first, hfirst, h⟩ := h
    rw [Doclet.bind_eq_ok_iff] at h
    obtain ⟨rest, hrest, h⟩ := h
    cases h
    exact .cons hfirst (ih hrest)

theorem canonicalEntries_eq (entries : List (Scalar × Value)) :
    canonicalEntries [] entries = entries.map fun e => (e.1, canonical e.2) := by
  induction entries with
  | nil => rfl
  | cons e es ih => rw [canonicalEntries, ih, List.map_cons, canonical]

variable {α : Type} {es es' : List (Scalar × α)}

/-- Entries in the order of their keys are the same entries. -/
theorem perm_sortEntries (h : sortEntries es = .ok es') : es'.Perm es := by
  have hinsert : ∀ (rest run sorted : List (Scalar × α)),
      rest.foldlM insertEntry run = .ok sorted → sorted.Perm (run ++ rest) := by
    intro rest
    induction rest with
    | nil =>
      intro run sorted hsorted
      cases hsorted
      rw [List.append_nil]
    | cons e rest ih =>
      intro run sorted hsorted
      rw [List.foldlM_cons, Doclet.bind_eq_ok_iff] at hsorted
      obtain ⟨longer, hlonger, hsorted⟩ := hsorted
      rw [insertEntry, Doclet.bind_eq_ok_iff] at hlonger
      obtain ⟨place, -, hlonger⟩ := hlonger
      cases hlonger
      calc sorted.Perm (insertAt run place e ++ rest) := ih _ _ hsorted
        List.Perm _ (e :: run ++ rest) := (perm_insertAt run place e).append_right rest
        List.Perm _ (run ++ e :: rest) := List.perm_middle.symm
  rw [sortEntries, Doclet.bind_eq_ok_iff] at h
  obtain ⟨⟨count, down⟩, -, h⟩ := h
  have hrun : (if down then (es.take count).reverse else es.take count).Perm (es.take count) := by
    split
    · exact List.reverse_perm _
    · exact .refl _
  have hall := (hinsert _ _ _ h).trans (hrun.append_right (es.drop count))
  rwa [List.take_append_drop] at hall

/-- A key, a colon and a value. -/
def entryText (name text : String) : String := name ++ ": " ++ text

/-- The text is written for an entry whose key is a text. -/
def Writes (e : Scalar × Value) (part : String) : Prop :=
  ∃ k text, e.1 = .text k ∧ canonical e.2 = .ok text ∧ part = entryText (quote k) text

theorem toList_entryText (name text : String) :
    (entryText name text).toList = name.toList ++ ([':', ' '] ++ text.toList) := by
  rw [entryText, String.toList_append, String.toList_append, List.append_assoc]
  rfl

/-- What is written for an entry tells its key from its value. -/
theorem entryText_inj {k k' : Text} {text text' : String}
    (h : entryText (quote k) text = entryText (quote k') text') :
    quote k = quote k' ∧ text = text' := by
  rw [← String.toList_inj, toList_entryText, toList_entryText] at h
  obtain ⟨hname, hrest⟩ := (isPhrase_quote k).cancel (isPhrase_quote k')
    (ends_cons (Or.inr rfl) (by decide)) (ends_cons (Or.inr rfl) (by decide)) h
  exact ⟨String.toList_inj.mp hname, by simpa [String.toList_inj] using hrest⟩

/-- The canonical text of a mapping: the entries in some order, each written by itself. -/
theorem exists_parts_of_canonical_map {entries : Mapping} {t : String}
    (hkeys : ∀ e ∈ entries, ∃ k, e.1 = .text k) (h : canonical (.map entries) = .ok t) :
    ∃ (sorted : Mapping) (parts : List String), sorted.Perm entries ∧
      t.toList = '\x7b' :: [',', ' '].intercalate (parts.map String.toList) ++ ['\x7d'] ∧
      List.Forall₂ Writes sorted parts := by
  rw [canonical, canonicalIn, Doclet.bind_eq_ok_iff] at h
  obtain ⟨written, hwritten, h⟩ := h
  rw [joinEntries, Doclet.bind_eq_ok_iff] at h
  obtain ⟨parts, hparts, h⟩ := h
  cases h
  have hperm := perm_sortEntries hwritten
  rw [canonicalEntries_eq] at hperm
  -- what was sorted are the entries with their texts
  have hsame : List.Forall₂ (fun (w : Scalar × Except Fault String) (e : Scalar × Value) =>
      w = (e.1, canonical e.2)) (entries.map fun e => (e.1, canonical e.2)) entries := by
    rw [List.forall₂_map_left_iff]
    exact List.forall₂_same.mpr fun _ _ => rfl
  obtain ⟨sorted, hsorted, hentries⟩ := List.perm_comp_forall₂ hperm hsame
  refine ⟨sorted, parts, hentries, ?_, ?_⟩
  · simp only [String.toList_append, String.toList_intercalate]
    rfl
  · have hmap : written = sorted.map fun e => (e.1, canonical e.2) := by
      rwa [← List.forall₂_map_right_iff, List.forall₂_eq_eq_eq] at hsorted
    have hall := forall₂_of_mapM hparts
    rw [hmap, List.forall₂_map_left_iff] at hall
    have htexts : ∀ e ∈ sorted, ∃ k, e.1 = .text k := fun e he => hkeys e (hentries.subset he)
    refine ((List.forall₂_and_left _ _).mpr ⟨htexts, hall⟩).imp ?_
    rintro ⟨-, v⟩ part ⟨⟨k, rfl⟩, hpart⟩
    rw [Doclet.bind_eq_ok_iff] at hpart
    obtain ⟨name, hname, hpart⟩ := hpart
    rw [Doclet.bind_eq_ok_iff] at hpart
    obtain ⟨text, htext, hpart⟩ := hpart
    cases hname
    cases hpart
    exact ⟨k, text, rfl, htext, rfl⟩

/-- The canonical text of a list: the items in order, each written by itself. -/
theorem exists_parts_of_canonical_list {items : List Value} {t : String}
    (h : canonical (.list items) = .ok t) : ∃ parts : List String,
      t.toList = '[' :: [',', ' '].intercalate (parts.map String.toList) ++ [']'] ∧
      List.Forall₂ (fun v part => canonical v = .ok part) items parts := by
  rw [canonical, canonicalIn, Doclet.bind_eq_ok_iff] at h
  obtain ⟨parts, hparts, h⟩ := h
  cases h
  refine ⟨parts, ?_, forall₂_canonicalItems hparts⟩
  simp only [String.toList_append, String.toList_intercalate]
  rfl

end Json

/-! ### Plain values -/

/-- Values that are made of scalars, lists, and mappings whose keys are different texts. -/
inductive Value.IsPlain : Value → Prop
  | scalar (s : Scalar) : IsPlain (.scalar s)
  | list {items : List Value} (hitems : ∀ v ∈ items, IsPlain v) : IsPlain (.list items)
  | map {entries : Mapping} (hkeys : ∀ e ∈ entries, ∃ k, e.1 = .text k)
      (hnodup : (entries.map Prod.fst).Nodup) (hvalues : ∀ e ∈ entries, IsPlain e.2) :
      IsPlain (.map entries)

theorem Value.IsPlain.of_map {entries : Mapping} (h : (Value.map entries).IsPlain) :
    (∀ e ∈ entries, ∃ k, e.1 = .text k) ∧ ∀ e ∈ entries, e.2.IsPlain := by
  cases h with
  | map hkeys _ hvalues => exact ⟨hkeys, hvalues⟩

namespace Json

/-- The kind of the value that is written in some characters. -/
def kindOf (cs : List Char) : Value.Kind :=
  if cs.head? = some '"' then .text
  else if cs.head? = some '[' then .list
  else if cs.head? = some '\x7b' then .map
  else if cs = ['n', 'u', 'l', 'l'] then .null
  else if cs ∈ [['t', 'r', 'u', 'e'], ['f', 'a', 'l', 's', 'e']] then .bool
  else if cs.all isIntegral then .int
  else .float

/-- The value that is written in some characters counts as set. -/
def isSet (cs : List Char) : Bool :=
  cs ∉ [['n', 'u', 'l', 'l'], ['f', 'a', 'l', 's', 'e'], ['0'], ['0', '.', '0'],
    ['-', '0', '.', '0'], ['"', '"'], ['[', ']'], ['\x7b', '\x7d']]

variable {cs : List Char} {s : Scalar} {v : Value} {t : String}

/-- What is written in bare characters is neither a text nor a collection. -/
theorem head?_of_isBare (h : cs.all isBare = true) :
    cs.head? ≠ some '"' ∧ cs.head? ≠ some '[' ∧ cs.head? ≠ some '\x7b' := by
  cases cs with
  | nil => simp
  | cons c cs =>
    rw [List.all_cons, Bool.and_eq_true] at h
    have hc := h.1
    simp only [List.head?_cons, ne_eq, Option.some.injEq]
    refine ⟨?_, ?_, ?_⟩ <;>
    · rintro rfl
      revert hc
      decide

/-- What is written in the characters of integers is one, and set unless it is a zero. -/
theorem shows_integral (h : cs.all isIntegral = true) :
    kindOf cs = .int ∧ (isSet cs = true ↔ cs ≠ ['0']) := by
  have hbare : cs.all isBare = true :=
    List.all_eq_true.mpr fun c hc => isBare_of_isIntegral (List.all_eq_true.mp h c hc)
  obtain ⟨hquote, hlist, hmap⟩ := head?_of_isBare hbare
  -- all names, fractions and brackets have a character that no integer has
  have hne : ∀ cs' : List Char, cs'.all isIntegral = false → cs ≠ cs' := by
    rintro _ hcs rfl
    rw [h] at hcs
    cases hcs
  have hnull := hne ['n', 'u', 'l', 'l'] (by decide)
  have htrue := hne ['t', 'r', 'u', 'e'] (by decide)
  have hfalse := hne ['f', 'a', 'l', 's', 'e'] (by decide)
  have hfloat := hne ['0', '.', '0'] (by decide)
  have hnegative := hne ['-', '0', '.', '0'] (by decide)
  have htext := hne ['"', '"'] (by decide)
  have hbrackets := hne ['[', ']'] (by decide)
  have hbraces := hne ['\x7b', '\x7d'] (by decide)
  exact ⟨by simp [kindOf, hquote, hlist, hmap, hnull, htrue, hfalse, h],
    by simp [isSet, hnull, hfalse, hfloat, hnegative, htext, hbrackets, hbraces]⟩

/-- What is written as a floating-point number is one, and set unless it is a zero. -/
theorem ShowsFloat.shows {isZero : Bool} (h : ShowsFloat cs isZero) :
    kindOf cs = .float ∧ isSet cs = !isZero := by
  obtain ⟨hbare, hintegral, hname, hzero⟩ := h
  obtain ⟨hquote, hlist, hmap⟩ := head?_of_isBare hbare
  simp only [List.mem_cons, List.not_mem_nil, or_false, not_or] at hname
  have hne : ∀ cs' : List Char,
      cs'.all isBare = false ∨ cs'.all isIntegral = true → cs ≠ cs' := by
    rintro _ h rfl
    simp [hbare, hintegral] at h
  have hint := hne ['0'] (by decide)
  have htext := hne ['"', '"'] (by decide)
  have hbrackets := hne ['[', ']'] (by decide)
  have hbraces := hne ['\x7b', '\x7d'] (by decide)
  have hset : isSet cs = true ↔ ¬isZero = true := by
    rw [← hzero]
    simp [isSet, hname, hint, htext, hbrackets, hbraces]
  refine ⟨by simp [kindOf, hquote, hlist, hmap, hname, hintegral], ?_⟩
  rw [Bool.eq_iff_iff, hset, Bool.not_eq_true', Bool.not_eq_true]

/-- Scalars other than texts are written in bare characters, which show what they are. -/
theorem shows_scalar (h : scalar s = .ok t) (htext : ∀ x, s ≠ .text x) :
    t.toList.all isBare = true ∧ t.toList ≠ [] ∧ kindOf t.toList = s.kind ∧
      isSet t.toList = s.isTruthy := by
  cases s with
  | null =>
    cases h
    exact ⟨by decide, by decide, by decide, by decide⟩
  | bool b =>
    cases h
    cases b <;> exact ⟨by decide, by decide, by decide, by decide⟩
  | int n =>
    have hintegral : t.toList.all isIntegral = true :=
      List.all_eq_true.mpr (isIntegral_of_integerText h)
    have hbare : t.toList.all isBare = true :=
      List.all_eq_true.mpr fun c hc => isBare_of_isIntegral (isIntegral_of_integerText h c hc)
    have hempty : t.toList ≠ [] := by
      rw [Ne, String.toList_eq_nil_iff]
      exact integerText_ne_empty h
    obtain ⟨hkind, hset⟩ := shows_integral hintegral
    have hzero : t.toList = ['0'] ↔ n = 0 := by
      rw [← integerText_eq_zero_iff h, ← String.toList_inj]
      rfl
    refine ⟨hbare, hempty, hkind, ?_⟩
    rw [Bool.eq_iff_iff, hset, Ne, hzero, Scalar.isTruthy, bne_iff_ne]
  | float x =>
    cases h
    have hshows := showsFloat_toText x
    refine ⟨hshows.bare, fun hnil => ?_, hshows.shows⟩
    have hintegral := hshows.not_integral
    rw [hnil] at hintegral
    cases hintegral
  | text x => exact absurd rfl (htext x)
  | moment m => cases h
  | bytes data => cases h

theorem isLoose_of_isBare (h : isBare c = true) : isLoose c = true := by
  have hne : ∀ d, isBare d = false → (c == d) = false := by
    intro d hd
    rw [beq_eq_false_iff_ne]
    rintro rfl
    rw [h] at hd
    cases hd
  simp only [isLoose, isOpening, isClosing, hne '"' (by decide), hne '[' (by decide),
    hne ']' (by decide), hne '\x7b' (by decide), hne '\x7d' (by decide), Bool.or_self,
    Bool.not_false]

/-- Bare characters are read as a whole up to a mark. -/
theorem isPhrase_of_isBare (h : cs.all isBare = true) (hstop : isBare stop = false) :
    IsPhrase stop cs := by
  rw [List.all_eq_true] at h
  refine isPhrase_of_isLoose (List.all_eq_true.mpr fun c hc => isLoose_of_isBare (h c hc)) ?_
  intro hin
  rw [h stop hin] at hstop
  cases hstop

theorem ne_nil_of_canonical (hv : v.IsPlain) (h : canonical v = .ok t) : t.toList ≠ [] := by
  cases hv with
  | scalar s =>
    rw [canonical, canonicalIn] at h
    by_cases htext : ∃ x, s = .text x
    · obtain ⟨x, rfl⟩ := htext
      cases h
      simp [quote]
    · obtain ⟨-, hne, -, -⟩ := shows_scalar h (not_exists.mp htext)
      exact hne
  | list =>
    obtain ⟨parts, ht, -⟩ := exists_parts_of_canonical_list h
    simp [ht]
  | map hkeys =>
    obtain ⟨sorted, parts, -, ht, -⟩ := exists_parts_of_canonical_map hkeys h
    simp [ht]

/-- Canonical texts are read as a whole up to a mark. -/
theorem isPhrase_canonical (hv : v.IsPlain) (h : canonical v = .ok t)
    (hstop : isBare stop = false) : IsPhrase stop t.toList := by
  induction hv generalizing t stop with
  | scalar s =>
    rw [canonical, canonicalIn] at h
    by_cases htext : ∃ x, s = .text x
    · obtain ⟨x, rfl⟩ := htext
      cases h
      exact isPhrase_quote x
    · obtain ⟨hbare, -, -, -⟩ := shows_scalar h (not_exists.mp htext)
      exact isPhrase_of_isBare hbare hstop
  | list _ ih =>
    obtain ⟨parts, ht, hparts⟩ := exists_parts_of_canonical_list h
    rw [ht]
    refine isPhrase_bracketed rfl rfl (isInner_intercalate fun p hp => ?_)
    obtain ⟨part, hpart, rfl⟩ := List.mem_map.mp hp
    obtain ⟨item, hitem, htext⟩ := exists_left_of_forall₂ hparts hpart
    exact (ih item hitem htext hstop).inner
  | map hkeys _ _ ih =>
    obtain ⟨sorted, parts, hperm, ht, hparts⟩ := exists_parts_of_canonical_map hkeys h
    rw [ht]
    refine isPhrase_bracketed rfl rfl (isInner_intercalate fun p hp => ?_)
    obtain ⟨part, hpart, rfl⟩ := List.mem_map.mp hp
    obtain ⟨e, he, k, text, -, htext, rfl⟩ := exists_left_of_forall₂ hparts hpart
    rw [toList_entryText]
    exact (isPhrase_quote k).inner.append ((isInner_of_isLoose (by decide)).append
      (ih e (hperm.subset he) htext hstop).inner)

/-! ### What a canonical text shows -/

variable {w : Value} {es es' : Mapping} {k : Text}

theorem escapeSymbol_ne_nil (x : Symbol) : escapeSymbol x ≠ [] := by
  cases x with
  | half n => exact List.cons_ne_nil _ _
  | char c =>
    rw [escapeSymbol, escapeChar]
    dsimp only
    split_ifs <;> simp [unitEscape]

/-- What stands between brackets is set if it has parts. -/
theorem isSet_bracketed {opening closing : Char} {parts : List String}
    (hbrackets : opening = '[' ∧ closing = ']' ∨ opening = '\x7b' ∧ closing = '\x7d')
    (hne : ∀ part ∈ parts, part.toList ≠ []) :
    isSet (opening :: [',', ' '].intercalate (parts.map String.toList) ++ [closing]) =
      !parts.isEmpty := by
  cases parts with
  | nil => rcases hbrackets with ⟨rfl, rfl⟩ | ⟨rfl, rfl⟩ <;> decide
  | cons part parts =>
    have hinner : [',', ' '].intercalate ((part :: parts).map String.toList) ≠ [] :=
      intercalate_ne_nil (hne part List.mem_cons_self)
    rw [List.map_cons] at hinner
    rcases hbrackets with ⟨rfl, rfl⟩ | ⟨rfl, rfl⟩ <;>
      simp [isSet, List.append_eq_cons_iff, hinner]

/-- The canonical text of a value shows its kind, and whether it is set. -/
theorem shows_canonical (hv : v.IsPlain) (h : canonical v = .ok t) :
    kindOf t.toList = v.kind ∧ isSet t.toList = v.isTruthy := by
  cases hv with
  | scalar s =>
    rw [canonical, canonicalIn] at h
    by_cases htext : ∃ x, s = .text x
    · obtain ⟨x, rfl⟩ := htext
      cases h
      have hquote : (quote x).toList = '"' :: (x.flatMap escapeSymbol ++ ['"']) := by
        rw [quote, String.toList_ofList, List.cons_append]
      rw [hquote]
      refine ⟨by simp [kindOf, Value.kind, Scalar.kind], ?_⟩
      cases x with
      | nil => decide
      | cons y ys =>
        have hne := escapeSymbol_ne_nil y
        simp [isSet, Value.isTruthy, Scalar.isTruthy, List.append_eq_cons_iff, hne]
    · obtain ⟨-, -, hkind, hset⟩ := shows_scalar h (not_exists.mp htext)
      exact ⟨hkind, hset⟩
  | list hitems =>
    obtain ⟨parts, ht, hparts⟩ := exists_parts_of_canonical_list h
    rw [ht]
    have hne : ∀ part ∈ parts, part.toList ≠ [] := by
      intro part hpart
      obtain ⟨item, hitem, htext⟩ := exists_left_of_forall₂ hparts hpart
      exact ne_nil_of_canonical (hitems item hitem) htext
    rw [isSet_bracketed (Or.inl ⟨rfl, rfl⟩) hne]
    exact ⟨by simp [kindOf, Value.kind], by cases hparts <;> rfl⟩
  | @map entries hkeys _ _ =>
    obtain ⟨sorted, parts, hperm, ht, hparts⟩ := exists_parts_of_canonical_map hkeys h
    rw [ht]
    have hne : ∀ part ∈ parts, part.toList ≠ [] := by
      intro part hpart
      obtain ⟨e, -, k, text, -, -, rfl⟩ := exists_left_of_forall₂ hparts hpart
      simp [toList_entryText]
    rw [isSet_bracketed (Or.inr ⟨rfl, rfl⟩) hne]
    have hlength : parts.length = entries.length := hparts.length_eq.symm.trans hperm.length_eq
    have hempty : parts.isEmpty = entries.isEmpty := by
      rw [Bool.eq_iff_iff, List.isEmpty_iff_length_eq_zero, List.isEmpty_iff_length_eq_zero,
        hlength]
    exact ⟨by simp [kindOf, Value.kind], congrArg not hempty⟩

/-- The canonical text of a mapping is split in one way only. -/
theorem isPhrase_parts {sorted : Mapping} {parts : List String}
    (hvalues : ∀ e ∈ sorted, e.2.IsPlain) (hparts : List.Forall₂ Writes sorted parts) :
    ∀ p ∈ parts.map String.toList, IsPhrase ',' p ∧ p ≠ [] := by
  intro p hp
  obtain ⟨part, hpart, rfl⟩ := List.mem_map.mp hp
  obtain ⟨e, he, k, text, -, htext, rfl⟩ := exists_left_of_forall₂ hparts hpart
  rw [toList_entryText]
  refine ⟨(isPhrase_quote k).append (IsPhrase.append ?_ ?_), by simp⟩
  · exact isPhrase_of_isLoose (by decide) (by decide)
  · exact isPhrase_canonical (hvalues e he) htext (by decide)

/-- Mappings with one canonical text have the same entries, as far as their texts tell. -/
theorem exists_of_canonical_map_eq (hes : (Value.map es).IsPlain) (hes' : (Value.map es').IsPlain)
    (h : canonical (.map es) = .ok t) (h' : canonical (.map es') = .ok t)
    (hmem : (Scalar.text k, v) ∈ es) : ∃ k' v' text, (Scalar.text k', v') ∈ es' ∧
      quote k = quote k' ∧ canonical v = .ok text ∧ canonical v' = .ok text := by
  obtain ⟨hkeys, hvalues⟩ := hes.of_map
  obtain ⟨hkeys', hvalues'⟩ := hes'.of_map
  obtain ⟨sorted, parts, hperm, ht, hparts⟩ := exists_parts_of_canonical_map hkeys h
  obtain ⟨sorted', parts', hperm', ht', hparts'⟩ := exists_parts_of_canonical_map hkeys' h'
  -- the text is split in one way only, so that what is written for the entry is a part of both
  have hsame : parts = parts' := by
    rw [ht] at ht'
    have hinner := List.append_cancel_right (List.cons.inj ht').2
    exact List.map_injective_iff.mpr (fun _ _ => String.toList_inj.mp) (intercalate_inj
      (isPhrase_parts (fun e he => hvalues e (hperm.subset he)) hparts)
      (isPhrase_parts (fun e he => hvalues' e (hperm'.subset he)) hparts') hinner)
  subst hsame
  obtain ⟨part, hpart, k₁, text, hk, htext, rfl⟩ :=
    exists_left_of_forall₂ hparts.flip (hperm.symm.subset hmem)
  cases hk
  obtain ⟨⟨-, v'⟩, hmem', k', text', rfl, htext', heq⟩ := exists_left_of_forall₂ hparts' hpart
  obtain ⟨hname, rfl⟩ := entryText_inj heq
  exact ⟨k', v', text, hperm'.subset hmem', hname, htext, htext'⟩

end Json

end DocLineage
