import Mathlib.Data.List.Nodup
import Storyline.Proofs.Mapping
import Storyline.Proofs.Text.Trim
import Storyline.Script.Written

/-!
# Clauses in canonical form

A clause ends at the parenthesis that closes it, with parentheses nested inside it and quotations
opaque. So what a clause says closes everything that it opens, and it does so also without the
blanks at its ends. Written as a clause of its own it is read again up to its own end, whatever
stands behind it.

## Main definitions

* `Nesting.after`, `Nesting.StaysOpen`: the nesting after a text, and that it never ends inside
* `Balanced`: a text that closes what it opens

## Main results

* `enclosed?_eq_some`: what a parenthesis encloses is balanced
* `Balanced.trim`: so is the same text without its blank ends
* `Balanced.enclosed?_eq`: a balanced text is enclosed by the parenthesis behind it
* `readClauses_clauseTexts`: clauses in a row are read back, and nothing is left over
* `get?_heldClauses`: in whatever order they stand
-/

namespace Storyline.Script

open Text

/-! ## Nesting -/

namespace Nesting

/-- The nesting after a text. -/
def after (n : Nesting) (s : List Char) : Nesting :=
  s.foldl step n

/-- Whether some parenthesis stays open all through a text. -/
def StaysOpen (n : Nesting) : List Char → Prop
  | [] => True
  | c :: r => (n.step c).depth ≠ 0 ∧ StaysOpen (n.step c) r

/-- Whether a quotation is open only if a quote opens it. -/
def Sane (n : Nesting) : Prop :=
  ∀ q ∈ n.quote, opensQuote q = true

variable {n : Nesting} {c : Char} {s t : List Char}

theorem after_append (n : Nesting) (s t : List Char) : n.after (s ++ t) = (n.after s).after t :=
  List.foldl_append

theorem staysOpen_append_iff : StaysOpen n (s ++ t) ↔ StaysOpen n s ∧ StaysOpen (n.after s) t := by
  induction s generalizing n with
  | nil => exact ⟨fun h => ⟨trivial, h⟩, fun h => h.2⟩
  | cons c r ih =>
    rw [List.cons_append, StaysOpen, StaysOpen, ih, and_assoc]
    rfl

theorem StaysOpen.depth_after (h : StaysOpen n s) (hn : n.depth ≠ 0) : (n.after s).depth ≠ 0 := by
  induction s generalizing n with
  | nil => exact hn
  | cons c r ih => exact ih h.2 h.1

theorem Sane.step (h : n.Sane) (c : Char) : (n.step c).Sane := by
  unfold Nesting.step
  split
  · split
    · exact nofun
    · exact h
  · next hquote =>
    split
    · next hc =>
      rintro q ⟨⟩
      exact hc
    · split
      · exact h
      · split <;> exact h

theorem Sane.after (h : n.Sane) (s : List Char) : (n.after s).Sane := by
  induction s generalizing n with
  | nil => exact h
  | cons c r ih => exact ih (h.step c)

theorem ne_of_isBlank {d : Char} (hc : isBlank c = true) (hd : isBlank d = false) : c ≠ d := by
  rintro rfl
  rw [hc] at hd
  cases hd

theorem isBlank_of_opensQuote (h : opensQuote c = true) : isBlank c = false := by
  rw [opensQuote, Bool.or_eq_true, beq_iff_eq, beq_iff_eq] at h
  rcases h with rfl | rfl <;> rfl

/-- A blank opens and closes nothing. -/
theorem Sane.step_blank (h : n.Sane) (hc : isBlank c = true) : n.step c = n := by
  obtain ⟨depth, quote⟩ := n
  cases quote with
  | some q => exact if_neg (ne_of_isBlank hc (isBlank_of_opensQuote (h q rfl)))
  | none =>
    have hquote : opensQuote c = false := by
      rw [Bool.eq_false_iff]
      intro hopens
      rw [isBlank_of_opensQuote hopens] at hc
      cases hc
    unfold Nesting.step
    dsimp only
    rw [hquote, if_neg Bool.false_ne_true, if_neg (ne_of_isBlank hc rfl),
      if_neg (ne_of_isBlank hc rfl)]

theorem Sane.after_blank (h : n.Sane) (hs : Blank s) : n.after s = n := by
  induction s with
  | nil => rfl
  | cons c r ih =>
    obtain ⟨hc, hr⟩ := List.forall_mem_cons.1 hs
    rw [Nesting.after, List.foldl_cons, h.step_blank hc]
    exact ih hr

theorem Sane.staysOpen_blank (h : n.Sane) (hn : n.depth ≠ 0) (hs : Blank s) : StaysOpen n s := by
  induction s with
  | nil => trivial
  | cons c r ih =>
    obtain ⟨hc, hr⟩ := List.forall_mem_cons.1 hs
    rw [StaysOpen, h.step_blank hc]
    exact ⟨hn, ih hr⟩

/-- Only a closing parenthesis outside quotations ends the nesting, and only where one is open. -/
theorem eq_of_depth_step (hn : n.depth ≠ 0) (h : (n.step c).depth = 0) :
    n = ⟨1, none⟩ ∧ c = ')' := by
  obtain ⟨depth, quote⟩ := n
  unfold Nesting.step at h
  cases quote with
  -- Inside a quotation the depth stays as it is.
  | some q =>
    dsimp only at h
    split at h <;> exact absurd h hn
  | none =>
    dsimp only at h hn
    split at h
    · exact absurd h hn
    · split at h
      · cases h
      · split at h
        · next hc =>
          obtain rfl : depth = 1 := by
            dsimp only at h
            omega
          exact ⟨rfl, hc⟩
        · exact absurd h hn

end Nesting

/-! ## Balanced texts -/

/-- Whether a text closes what it opens and nothing more. -/
def Balanced (s : List Char) : Prop :=
  Nesting.StaysOpen ⟨1, none⟩ s ∧ Nesting.after ⟨1, none⟩ s = ⟨1, none⟩

section

variable {n : Nesting} {s t content rest : List Char}

theorem sane_one : Nesting.Sane ⟨1, none⟩ :=
  nofun

/-- A text in which some parenthesis stays open is enclosed with what follows. -/
theorem enclosed?_append (h : n.StaysOpen s) (t : List Char) :
    enclosed? n (s ++ t) = (enclosed? (n.after s) t).map fun p => (s ++ p.1, p.2) := by
  induction s generalizing n with
  | nil => exact (Option.map_id' (x := enclosed? n t)).symm
  | cons c r ih =>
    rw [List.cons_append, enclosed?, if_neg h.1, ih h.2, Option.map_map]
    rfl

/-- A balanced text is enclosed by the parenthesis behind it. -/
theorem Balanced.enclosed?_eq (h : Balanced s) (t : List Char) :
    enclosed? ⟨1, none⟩ (s ++ ')' :: t) = some (s, t) := by
  have hclose : enclosed? ⟨1, none⟩ (')' :: t) = some ([], t) := if_pos rfl
  rw [enclosed?_append h.1, h.2, hclose, Option.map_some, List.append_nil]

theorem staysOpen_of_enclosed? (h : enclosed? n s = some (content, rest)) :
    n.StaysOpen content ∧
      ∃ c, s = content ++ c :: rest ∧ ((n.after content).step c).depth = 0 := by
  induction s generalizing n content with
  | nil => cases h
  | cons c r ih =>
    unfold enclosed? at h
    split at h
    · next hdepth =>
      cases h
      exact ⟨trivial, c, rfl, hdepth⟩
    · next hdepth =>
      obtain ⟨⟨inside, behind⟩, hinside, he⟩ := Option.map_eq_some_iff.1 h
      cases he
      obtain ⟨hopen, d, rfl, hclose⟩ := ih hinside
      exact ⟨⟨hdepth, hopen⟩, d, rfl, hclose⟩

/-- What a parenthesis encloses is balanced, and stands in front of the parenthesis that closes
it. -/
theorem enclosed?_eq_some (h : enclosed? ⟨1, none⟩ s = some (content, rest)) :
    Balanced content ∧ s = content ++ ')' :: rest := by
  obtain ⟨hopen, c, rfl, hclose⟩ := staysOpen_of_enclosed? h
  obtain ⟨hafter, rfl⟩ := Nesting.eq_of_depth_step (hopen.depth_after Nat.one_ne_zero) hclose
  exact ⟨⟨hopen, hafter⟩, rfl⟩

/-- Blanks in front of a balanced text leave it balanced. -/
theorem Balanced.blank_append (hs : Blank s) (h : Balanced t) : Balanced (s ++ t) := by
  have hfront : Nesting.after ⟨1, none⟩ s = ⟨1, none⟩ := sane_one.after_blank hs
  refine ⟨Nesting.staysOpen_append_iff.2 ⟨sane_one.staysOpen_blank Nat.one_ne_zero hs, ?_⟩, ?_⟩
  · rw [hfront]
    exact h.1
  · rw [Nesting.after_append, hfront]
    exact h.2

/-- A balanced text is balanced without its blank ends. -/
theorem Balanced.trim (h : Balanced s) : Balanced (trim s) := by
  obtain ⟨front, back, hfront, hback, hs⟩ := exists_eq_append_trim s
  obtain ⟨hopen, hafter⟩ := h
  have hstart : Nesting.after ⟨1, none⟩ front = ⟨1, none⟩ := sane_one.after_blank hfront
  rw [hs, Nesting.staysOpen_append_iff, hstart, Nesting.staysOpen_append_iff] at hopen
  rw [hs, Nesting.after_append, hstart, Nesting.after_append] at hafter
  -- The nesting behind the text is the nesting behind the blanks.
  rw [(sane_one.after (Text.trim s)).after_blank hback] at hafter
  exact ⟨hopen.2.1, hafter⟩

end

/-! ## Clauses in a row -/

section

variable {name : String} {s r : List Char}

/-- Whether a clause can say something: it is balanced, filled and on one line. -/
structure IsClause (v : List Char) : Prop where
  filled : Filled v
  balanced : Balanced v
  unbroken : '\n' ∉ v

theorem clauseStart?_clause (h : name ∈ clauseNames) (r : List Char) :
    clauseStart? ('(' :: name.toList ++ ':' :: r) = some (name, r) := by
  simp only [clauseNames, List.mem_cons, List.not_mem_nil, or_false] at h
  rcases h with rfl | rfl | rfl <;> rfl

theorem clauseStart?_of_ne {c : Char} (h : c ≠ '(') (r : List Char) :
    clauseStart? (c :: r) = none := by
  rw [clauseStart?, List.findSome?_eq_none_iff]
  intro name _
  rw [Option.map_eq_none_iff, after?, if_neg]
  intro hprefix
  exact h (List.cons_prefix_cons.1 (List.isPrefixOf_iff_prefix.1 hprefix)).1.symm

theorem clauseList_nil : clauseList [] = ([], []) := by
  rw [clauseList]

theorem clauseList_char {c : Char} (h : clauseStart? (c :: r) = none) :
    clauseList (c :: r) = ((clauseList r).1, c :: (clauseList r).2) := by
  rw [clauseList]
  split
  · rfl
  · next hsome =>
    rw [h] at hsome
    cases hsome

theorem clauseList_start {t content rest : List Char} (h : clauseStart? s = some (name, t))
    (ht : enclosed? ⟨1, none⟩ t = some (content, rest)) :
    clauseList s =
      ((name, String.ofList (trim content)) :: (clauseList rest).1, (clauseList rest).2) := by
  cases s with
  | nil => cases h
  | cons c r =>
    rw [clauseList]
    split
    · next hnone =>
      rw [h] at hnone
      cases hnone
    · next hstart =>
      rw [h] at hstart
      cases hstart
      split
      · next hnone =>
        rw [ht] at hnone
        cases hnone
      · next hinside =>
        rw [ht] at hinside
        cases hinside
        rfl

/-- The clauses of a text are balanced and trimmed, and nothing but the text is in them. -/
theorem of_mem_clauseList {p : String × String} (h : p ∈ (clauseList s).1) :
    Balanced p.2.toList ∧ trim p.2.toList = p.2.toList ∧ ∀ c ∈ p.2.toList, c ∈ s := by
  fun_induction clauseList s with
  | case1 => cases h
  | case2 c r _ _ ih =>
    obtain ⟨hbalanced, htrim, hmem⟩ := ih h
    exact ⟨hbalanced, htrim, fun d hd => List.mem_cons_of_mem c (hmem d hd)⟩
  | case3 => cases h
  | case4 c r name t hstart content rest hinside _ ih =>
    obtain ⟨hbalanced, rfl⟩ := enclosed?_eq_some hinside
    obtain ⟨n, -, hn⟩ := List.exists_of_findSome?_eq_some hstart
    obtain ⟨u, hu, he⟩ := Option.map_eq_some_iff.1 hn
    cases he
    rw [eq_append_of_after? hu]
    rcases List.mem_cons.1 h with rfl | h
    · rw [String.toList_ofList]
      refine ⟨hbalanced.trim, trim_trim content, fun d hd => ?_⟩
      exact List.mem_append_right _ (List.mem_append_left _ (mem_of_mem_trim hd))
    · obtain ⟨hb, htrim, hmem⟩ := ih h
      refine ⟨hb, htrim, fun d hd => List.mem_append_right _ (List.mem_append_right _ ?_)⟩
      exact List.mem_cons_of_mem _ (hmem d hd)

/-! ## Written clauses -/

/-- Clauses by their names, in some order, as they are written. -/
def clauseTexts (order : List (String × Option String)) : List Char :=
  order.flatMap fun p => (clauseText p.1 p.2).toList

/-- The clauses that say something. -/
def heldClauses (order : List (String × Option String)) : List (String × String) :=
  order.filterMap fun p => p.2.map fun v => (p.1, v)

/-- Whether clauses can be written: each has a name for it, and is as clauses are. -/
def AreClauses (order : List (String × Option String)) : Prop :=
  ∀ p ∈ order, p.1 ∈ clauseNames ∧ ∀ v ∈ p.2, IsClause v.toList

theorem toList_clauseText {v : String} (hv : v.toList ≠ []) :
    (clauseText name (some v)).toList =
      ' ' :: ('(' :: name.toList ++ ':' :: (' ' :: v.toList ++ [')'])) := by
  have hempty : v.isEmpty = false := by simpa using hv
  rw [clauseText, Option.filter_some, hempty, Bool.not_false, if_pos rfl]
  show (" (" ++ name ++ ": " ++ v ++ ")").toList = _
  rw [String.toList_append, String.toList_append, String.toList_append, String.toList_append,
    List.append_assoc, List.append_assoc, List.append_assoc]
  rfl

/-- A written clause is read up to its end, and only the blank in front of it is left over. -/
theorem clauseList_clause {v : String} (hname : name ∈ clauseNames) (hv : IsClause v.toList)
    (rest : List Char) :
    clauseList ((clauseText name (some v)).toList ++ rest) =
      ((name, v) :: (clauseList rest).1, ' ' :: (clauseList rest).2) := by
  have hinside : enclosed? ⟨1, none⟩ (' ' :: v.toList ++ ')' :: rest) =
      some (' ' :: v.toList, rest) := (hv.balanced.blank_append blank_space).enclosed?_eq rest
  have htrim : trim (' ' :: v.toList) = v.toList :=
    (trim_append blank_space v.toList).trans hv.filled.2
  have hstart := clauseStart?_clause hname (' ' :: v.toList ++ ')' :: rest)
  have htext : (clauseText name (some v)).toList ++ rest =
      ' ' :: ('(' :: name.toList ++ ':' :: (' ' :: v.toList ++ ')' :: rest)) := by
    rw [toList_clauseText hv.filled.1]
    simp
  rw [htext, clauseList_char (clauseStart?_of_ne (by decide) _), clauseList_start hstart hinside,
    htrim, String.ofList_toList]

variable {order : List (String × Option String)}

/-- Clauses in a row are read one by one, and nothing but blanks is left over. -/
theorem clauseList_clauseTexts (h : AreClauses order) :
    (clauseList (clauseTexts order)).1 = heldClauses order ∧
      Blank (clauseList (clauseTexts order)).2 := by
  induction order with
  | nil =>
    rw [clauseTexts, List.flatMap_nil, clauseList_nil]
    exact ⟨rfl, List.forall_mem_nil _⟩
  | cons p order ih =>
    obtain ⟨name, o⟩ := p
    obtain ⟨⟨hname, hvalue⟩, horder⟩ := List.forall_mem_cons.1 h
    obtain ⟨hclauses, hblank⟩ := ih horder
    have hcut : clauseTexts ((name, o) :: order) =
        (clauseText name o).toList ++ clauseTexts order := List.flatMap_cons
    cases o with
    | none => exact ⟨hclauses, hblank⟩
    | some v =>
      rw [hcut, clauseList_clause hname (hvalue v rfl), hclauses]
      exact ⟨rfl, List.forall_mem_cons.2 ⟨rfl, hblank⟩⟩

/-- Clauses in a row are read back, and nothing is left over. -/
theorem readClauses_clauseTexts (h : AreClauses order) :
    readClauses (clauseTexts order) = (Mapping.ofList (heldClauses order), "") := by
  obtain ⟨hclauses, hblank⟩ := clauseList_clauseTexts h
  rw [readClauses, hclauses, trim_eq_nil_iff.2 hblank]

/-- Clauses in a row are on one line. -/
theorem unbroken_clauseTexts (h : AreClauses order) : '\n' ∉ clauseTexts order := by
  intro hmem
  obtain ⟨⟨name, o⟩, hp, hmem⟩ := List.mem_flatMap.1 hmem
  obtain ⟨hname, hvalue⟩ := h _ hp
  have hnames : ∀ name ∈ clauseNames, '\n' ∉ name.toList := by decide
  cases o with
  | none => cases hmem
  | some v =>
    have hv := hvalue v rfl
    rw [toList_clauseText hv.filled.1] at hmem
    simp [hnames name hname, hv.unbroken] at hmem

/-- Clauses in a row end a line with no blank. -/
theorem filled_append_clauseTexts {s : List Char} (hs : Filled s) (h : AreClauses order) :
    Filled (s ++ clauseTexts order) := by
  -- Each clause in turn becomes part of the text in front of the next one.
  induction order generalizing s with
  | nil => simpa [clauseTexts] using hs
  | cons p order ih =>
    obtain ⟨name, o⟩ := p
    obtain ⟨⟨-, hvalue⟩, horder⟩ := List.forall_mem_cons.1 h
    have hcut : clauseTexts ((name, o) :: order) =
        (clauseText name o).toList ++ clauseTexts order := List.flatMap_cons
    rw [hcut, ← List.append_assoc]
    refine ih ?_ horder
    cases o with
    | none => simpa [clauseText] using hs
    | some v =>
      have hclosing : Filled [')'] := filled_of_forall (List.cons_ne_nil _ _)
        (List.forall_mem_singleton.2 rfl)
      rw [toList_clauseText (hvalue v rfl).filled.1]
      simpa using hs.between hclosing (' ' :: '(' :: (name.toList ++ ':' :: ' ' :: v.toList))

theorem mem_heldClauses {v : String} : (name, v) ∈ heldClauses order ↔ (name, some v) ∈ order := by
  rw [heldClauses, List.mem_filterMap]
  constructor
  · rintro ⟨⟨other, o⟩, hmem, he⟩
    obtain ⟨w, rfl, he⟩ := Option.map_eq_some_iff.1 he
    cases he
    exact hmem
  · exact fun hmem => ⟨(name, some v), hmem, rfl⟩

theorem nodup_heldClauses (h : (order.map Prod.fst).Nodup) :
    ((heldClauses order).map Prod.fst).Nodup := by
  refine h.sublist ?_
  induction order with
  | nil => exact .slnil
  | cons p order ih =>
    obtain ⟨name, o⟩ := p
    have hrest := ih (List.nodup_cons.1 h).2
    cases o with
    | none => exact hrest.cons name
    | some v => exact hrest.cons_cons name

/-- Each clause that was written is found under its name, wherever it stands among the others. -/
theorem get?_heldClauses (hdistinct : (order.map Prod.fst).Nodup) {o : Option String}
    (h : (name, o) ∈ order) : (Mapping.ofList (heldClauses order)).get? name = o := by
  refine Option.ext fun v => ?_
  rw [Mapping.get?_eq_some_iff, Mapping.toList_ofList (nodup_heldClauses hdistinct),
    mem_heldClauses]
  constructor
  · intro hmem
    exact congrArg Prod.snd (List.inj_on_of_nodup_map hdistinct h hmem rfl)
  · rintro rfl
    exact h

end

end Storyline.Script
