import Storyline.Proofs.Expr.Tag
import Storyline.Proofs.Script.Canonical.Clauses
import Storyline.Proofs.Script.Normal

/-!
# Choices in canonical form

The text of a choice ends at the first closing bracket with an arrow behind it, so brackets and
arrows may stand in the text as well, just not in this order with nothing but blanks between. That
stays so when the blanks at the ends of the text are taken away. The canonical line of a choice
puts the trimmed text between its brackets, and the clauses behind the target, in any order.

## Main definitions

* `Arrowless`: a text in which no closing bracket has an arrow behind it
* `Choice.Writable`: a choice that can be written on a line
* `Choice.lineIn`: its line, with the clauses in an order

## Main results

* `bracketed?_append`, `bracketed?_eq_some`: where the text of a choice ends
* `Arrowless.trim`: trimming makes no such bracket
* `writable_of_choice?`: the choice of a line can be written
* `choice?_lineIn`: a written choice is read back, and nothing is left over
* `clause_lineIn`: what it says in a clause is found again
-/

namespace Storyline

namespace Script

open Text

/-! ## Arrows -/

/-- Whether a text is an arrow up to the first character of its target. -/
def IsArrow (s : List Char) : Prop :=
  ∃ front back c, (∀ d ∈ front, isAsciiBlank d = true) ∧ (∀ d ∈ back, isAsciiBlank d = true) ∧
    isNameChar c = true ∧ s = front ++ '-' :: '>' :: (back ++ [c])

section

variable {s t front back name rest : List Char} {p : String × List Char}

theorem isBlank_of_isNameChar {c : Char} (h : isNameChar c = true) : isBlank c = false := by
  rw [isNameChar, Bool.or_eq_true, beq_iff_eq] at h
  rcases h with h | rfl
  · exact Expr.isBlank_of_isWord h
  · rfl

theorem isAsciiBlank_of_isNameChar {c : Char} (h : isNameChar c = true) :
    isAsciiBlank c = false := by
  have hblank := isBlank_of_isNameChar h
  simp only [isBlank, Bool.or_eq_false_iff] at hblank
  tauto

/-- An arrow leads to the name behind it. -/
theorem arrow?_eq (hfront : ∀ d ∈ front, isAsciiBlank d = true)
    (hback : ∀ d ∈ back, isAsciiBlank d = true) (hne : name ≠ [])
    (hname : ∀ c ∈ name, isNameChar c = true) (hrest : ∀ c ∈ rest.head?, isNameChar c = false) :
    arrow? (front ++ '-' :: '>' :: (back ++ (name ++ rest))) = some (String.ofList name, rest) := by
  have hdash : (front ++ '-' :: '>' :: (back ++ (name ++ rest))).dropWhile isAsciiBlank =
      ['-', '>'] ++ (back ++ (name ++ rest)) := by
    rw [List.dropWhile_append_of_pos hfront]
    rfl
  have hafter : after? ['-', '>'] (['-', '>'] ++ (back ++ (name ++ rest))) =
      some (back ++ (name ++ rest)) := by
    simp [after?]
  have hstart : (back ++ (name ++ rest)).dropWhile isAsciiBlank = name ++ rest := by
    obtain ⟨c, r, rfl⟩ := List.exists_cons_of_ne_nil hne
    rw [List.dropWhile_append_of_pos hback, List.cons_append, List.dropWhile_cons_of_neg]
    simpa using isAsciiBlank_of_isNameChar (hname c List.mem_cons_self)
  obtain ⟨htake, hdrop⟩ : (name ++ rest).takeWhile isNameChar = name ∧
      (name ++ rest).dropWhile isNameChar = rest := by
    rw [List.takeWhile_append_of_pos hname, List.dropWhile_append_of_pos hname]
    cases rest with
    | nil => exact ⟨List.append_nil name, rfl⟩
    | cons c r =>
      have hc : ¬isNameChar c = true := by rw [hrest c rfl]; exact Bool.false_ne_true
      rw [List.takeWhile_cons_of_neg hc, List.dropWhile_cons_of_neg hc, List.append_nil]
      exact ⟨rfl, rfl⟩
  rw [arrow?, hdash, hafter, Option.bind_some]
  dsimp only
  rw [hstart, htake, hdrop]
  obtain ⟨c, r, rfl⟩ := List.exists_cons_of_ne_nil hne
  rfl

theorem arrow?_eq_some (h : arrow? s = some p) :
    ∃ front back name, (∀ d ∈ front, isAsciiBlank d = true) ∧
      (∀ d ∈ back, isAsciiBlank d = true) ∧ name ≠ [] ∧ (∀ c ∈ name, isNameChar c = true) ∧
      s = front ++ '-' :: '>' :: (back ++ (name ++ p.2)) := by
  obtain ⟨r, hr, h⟩ := Option.bind_eq_some_iff.1 h
  dsimp only at h
  split at h
  · cases h
  · next hne =>
    cases h
    refine ⟨s.takeWhile isAsciiBlank, r.takeWhile isAsciiBlank,
      (r.dropWhile isAsciiBlank).takeWhile isNameChar, List.all_eq_true.1 List.all_takeWhile,
      List.all_eq_true.1 List.all_takeWhile, hne, List.all_eq_true.1 List.all_takeWhile, ?_⟩
    rw [List.takeWhile_append_dropWhile, List.takeWhile_append_dropWhile]
    conv => lhs; rw [← List.takeWhile_append_dropWhile (p := isAsciiBlank) (l := s),
      eq_append_of_after? hr]
    rfl

/-- An arrow is there exactly when the text begins with one. -/
theorem exists_arrow?_iff : (∃ p, arrow? s = some p) ↔ ∃ u, IsArrow u ∧ u <+: s := by
  constructor
  · rintro ⟨p, h⟩
    obtain ⟨front, back, name, hfront, hback, hne, hname, rfl⟩ := arrow?_eq_some h
    obtain ⟨c, r, rfl⟩ := List.exists_cons_of_ne_nil hne
    exact ⟨_, ⟨front, back, c, hfront, hback, hname c List.mem_cons_self, rfl⟩, r ++ p.2, by simp⟩
  · rintro ⟨_, ⟨front, back, c, hfront, hback, hc, rfl⟩, r, rfl⟩
    have hname : ∀ d ∈ (c :: r).takeWhile isNameChar, isNameChar d = true :=
      List.all_eq_true.1 List.all_takeWhile
    have hne : (c :: r).takeWhile isNameChar ≠ [] := by
      rw [List.takeWhile_cons_of_pos hc]
      exact List.cons_ne_nil _ _
    have hrest : ∀ d ∈ ((c :: r).dropWhile isNameChar).head?, isNameChar d = false := by
      intro d hd
      have hnot := List.head?_dropWhile_not isNameChar (c :: r)
      rwa [Option.mem_def.1 hd] at hnot
    have harrow := arrow?_eq hfront hback hne hname hrest
    rw [List.takeWhile_append_dropWhile] at harrow
    refine ⟨_, Eq.trans (congrArg arrow? ?_) harrow⟩
    simp

theorem arrow?_append_ne_none (h : arrow? s ≠ none) (t : List Char) : arrow? (s ++ t) ≠ none := by
  rw [Option.ne_none_iff_exists'] at h ⊢
  obtain ⟨u, hu, hprefix⟩ := exists_arrow?_iff.1 h
  exact exists_arrow?_iff.2 ⟨u, hu, hprefix.trans (List.prefix_append s t)⟩

theorem notMem_of_isArrow (h : IsArrow s) : ']' ∉ s := by
  obtain ⟨front, back, c, hfront, hback, hc, rfl⟩ := h
  have hblank {u : List Char} (hu : ∀ d ∈ u, isAsciiBlank d = true) : ']' ∉ u := fun hmem => by
    cases hu _ hmem
  have hne : ']' ≠ c := by
    rintro rfl
    cases hc
  simp [hblank hfront, hblank hback, hne]

/-- No arrow goes past a closing bracket. -/
theorem arrow?_append_bracket (h : arrow? s = none) (t : List Char) :
    arrow? (s ++ ']' :: t) = none := by
  rw [Option.eq_none_iff_forall_ne_some]
  intro p hp
  obtain ⟨u, hu, hprefix⟩ := exists_arrow?_iff.1 ⟨p, hp⟩
  have hshort : u <+: s := by
    rcases List.prefix_or_prefix_of_prefix hprefix (List.prefix_append s (']' :: t)) with hus | hsu
    · exact hus
    · obtain ⟨v, rfl⟩ := hsu
      cases v with
      | nil => simp
      | cons c v =>
        obtain ⟨rfl, -⟩ := List.cons_prefix_cons.1 ((List.prefix_append_right_inj s).1 hprefix)
        exact absurd (by simp) (notMem_of_isArrow hu)
  obtain ⟨q, hq⟩ := exists_arrow?_iff.2 ⟨u, hu, hshort⟩
  rw [h] at hq
  cases hq

/-! ## The text of a choice -/

/-- Whether no closing bracket of a text has an arrow behind it. -/
def Arrowless (text : List Char) : Prop :=
  ∀ before behind, text = before ++ ']' :: behind → arrow? behind = none

theorem Arrowless.of_append {text : List Char} (h : Arrowless (s ++ (text ++ t))) :
    Arrowless text := by
  rintro before behind rfl
  by_contra hsome
  refine arrow?_append_ne_none hsome t (h (s ++ before) (behind ++ t) ?_)
  simp

/-- Trimming puts no arrow behind a bracket. -/
theorem Arrowless.trim (h : Arrowless s) : Arrowless (trim s) := by
  obtain ⟨front, back, -, -, hs⟩ := exists_eq_append_trim s
  rw [hs] at h
  exact h.of_append

/-- A text without such a bracket ends at the bracket behind it that has an arrow. -/
theorem bracketed?_append (h : Arrowless s) (ht : arrow? t = some p) :
    bracketed? (s ++ ']' :: t) = some (s, p) := by
  induction s with
  | nil => rw [List.nil_append, bracketed?, if_pos rfl, ht]
  | cons c r ih =>
    have hrest : Arrowless r := Arrowless.of_append (s := [c]) (t := []) (by simpa using h)
    -- No arrow behind a bracket of the text reaches past the bracket that ends it.
    have hnone : (if c = ']' then arrow? (r ++ ']' :: t) else none) = none := by
      split
      · next hc =>
        subst hc
        exact arrow?_append_bracket (h [] r rfl) t
      · rfl
    rw [List.cons_append, bracketed?, hnone]
    dsimp only
    rw [ih hrest]
    rfl

theorem bracketed?_eq_some {q : List Char × String × List Char} (h : bracketed? s = some q) :
    Arrowless q.1 ∧ ∃ t, s = q.1 ++ ']' :: t ∧ arrow? t = some q.2 := by
  induction s generalizing q with
  | nil => cases h
  | cons c r ih =>
    rw [bracketed?] at h
    split at h
    · next found hfound =>
      cases h
      split at hfound
      · next hc =>
        refine ⟨fun before behind he => ?_, r, by rw [hc]; rfl, hfound⟩
        cases before <;> cases he
      · cases hfound
    · next hnone =>
      obtain ⟨⟨text, found⟩, hq, rfl⟩ := Option.map_eq_some_iff.1 h
      obtain ⟨harrowless, t, rfl, ht⟩ := ih hq
      refine ⟨fun before behind he => ?_, t, rfl, ht⟩
      cases before with
      | nil =>
        obtain ⟨rfl, rfl⟩ := List.cons.inj he
        rw [if_pos rfl] at hnone
        by_contra hsome
        exact arrow?_append_ne_none hsome _ hnone
      | cons d before => exact harrowless before behind (List.cons.inj he).2

end

end Script

/-! ## Lines of choices -/

namespace Choice

open Script Text

/-- What a choice says besides its text and its target, by the names of clauses. -/
def clauses (c : Choice) : List (String × Option String) :=
  [("if", c.condition), ("set", c.assignment), ("audio", c.audio)]

/-- The line of a choice with clauses in an order. -/
def lineIn (c : Choice) (order : List (String × Option String)) : List Char :=
  '*' :: ' ' :: '[' :: (c.text.toList ++ ']' ::
    ([' '] ++ '-' :: '>' :: ([' '] ++ (c.target.toList ++ clauseTexts order))))

/-- Whether a choice can be written: its text is trimmed and on one line, no bracket in it has an
arrow behind it, it leads to a name, and its clauses can be written. -/
structure Writable (c : Choice) : Prop where
  text : trim c.text.toList = c.text.toList
  arrowless : Arrowless c.text.toList
  unbroken : '\n' ∉ c.text.toList
  target : IsName c.target
  clauses : AreClauses c.clauses

theorem nodup_clauses (c : Choice) : (c.clauses.map Prod.fst).Nodup := by
  simp [clauses]

theorem toList_choiceLine (c : Choice) : (choiceLine c).toList = c.lineIn c.clauses := by
  show ("* [" ++ c.text ++ "] -> " ++ c.target ++ clauseText "if" c.condition ++
    clauseText "set" c.assignment ++ clauseText "audio" c.audio).toList = _
  simp only [String.toList_append, List.append_assoc]
  simp [lineIn, clauses, clauseTexts]

end Choice

namespace Script

open Text

section

variable {c : Choice} {order : List (String × Option String)}

/-- Where the clauses of a choice begin, its target has ended. -/
theorem head?_clauseTexts (h : AreClauses order) :
    ∀ d ∈ (clauseTexts order).head?, isNameChar d = false := by
  induction order with
  | nil => simp [clauseTexts]
  | cons p order ih =>
    obtain ⟨name, o⟩ := p
    obtain ⟨⟨-, hvalue⟩, horder⟩ := List.forall_mem_cons.1 h
    rw [clauseTexts, List.flatMap_cons]
    cases o with
    | none => exact ih horder
    | some v =>
      dsimp only
      rw [toList_clauseText (hvalue v rfl).filled.1]
      rintro d ⟨⟩
      rfl

/-- A written choice is read back, and nothing is left over. -/
theorem choice?_lineIn (h : c.Writable) (horder : order.Perm c.clauses) :
    choice? (c.lineIn order) =
      some (.choice c.text c.target (Mapping.ofList (heldClauses order)), "") := by
  have hclauses : AreClauses order := fun p hp => h.clauses p (horder.mem_iff.1 hp)
  have harrow : arrow? ([' '] ++ '-' :: '>' :: ([' '] ++ (c.target.toList ++ clauseTexts order))) =
      some (c.target, clauseTexts order) := by
    have hblank : ∀ d ∈ [' '], isAsciiBlank d = true := List.forall_mem_singleton.2 rfl
    rw [arrow?_eq hblank hblank h.target.1 h.target.2 (head?_clauseTexts hclauses),
      String.ofList_toList]
  have hopening (s : List Char) : after? ['['] (('[' :: s).dropWhile isAsciiBlank) = some s :=
    if_pos rfl
  have hspace : isAsciiBlank ' ' = true := rfl
  rw [Choice.lineIn, choice?, if_pos hspace, hopening, Option.bind_some,
    bracketed?_append h.arrowless harrow, Option.map_some]
  dsimp only
  rw [readClauses_clauseTexts hclauses, String.ofList_toList]

/-- What a choice says in a clause is found in its line, in whatever order the clauses stand. -/
theorem clause_lineIn (h : c.Writable) (horder : order.Perm c.clauses) {name : String}
    {o : Option String} (hmem : (name, o) ∈ c.clauses) :
    ((Mapping.ofList (heldClauses order)).get? name).filter (fun v => !v.isEmpty) = o := by
  have hdistinct : (order.map Prod.fst).Nodup :=
    (horder.map Prod.fst).nodup_iff.2 c.nodup_clauses
  rw [get?_heldClauses hdistinct (horder.mem_iff.2 hmem)]
  cases o with
  | none => rfl
  | some v =>
    have hfilled := ((h.clauses _ hmem).2 v rfl).filled.1
    rw [Option.filter_some, if_pos (by simpa using hfilled)]

/-- The line of a choice is trimmed. -/
theorem trim_lineIn (h : c.Writable) (horder : order.Perm c.clauses) :
    trim (c.lineIn order) = c.lineIn order := by
  have hmark : Filled ['*'] := filled_of_forall (List.cons_ne_nil _ _)
    (List.forall_mem_singleton.2 rfl)
  have htarget : Filled c.target.toList :=
    filled_of_forall h.target.1 fun d hd => isBlank_of_isNameChar (h.target.2 d hd)
  have hclauses : AreClauses order := fun p hp => h.clauses p (horder.mem_iff.1 hp)
  have hline := filled_append_clauseTexts
    (hmark.between htarget (' ' :: '[' :: (c.text.toList ++ "] -> ".toList))) hclauses
  have hcut : c.lineIn order = ['*'] ++ (' ' :: '[' :: (c.text.toList ++ "] -> ".toList)) ++
      c.target.toList ++ clauseTexts order := by
    simp [Choice.lineIn]
  rw [hcut, hline.2]

/-- The line of a choice is a single one. -/
theorem unbroken_lineIn (h : c.Writable) (horder : order.Perm c.clauses) :
    '\n' ∉ c.lineIn order := by
  have htarget : '\n' ∉ c.target.toList := fun hmem =>
    absurd (h.target.2 _ hmem) (by decide)
  have hclauses := unbroken_clauseTexts fun p hp => h.clauses p (horder.mem_iff.1 hp)
  simp [Choice.lineIn, h.unbroken, htarget, hclauses]

/-- The choice that a line is can be written. -/
theorem writable_of_choice? {l : List Char} {text target : String} {clauses : Mapping String}
    {leftover : String} (hbreak : '\n' ∉ l)
    (h : choice? l = some (.choice text target clauses, leftover)) :
    Choice.Writable
      { text := trimmed text, target := target
        condition := (clauses.get? "if").filter fun c => !c.isEmpty
        assignment := (clauses.get? "set").filter fun c => !c.isEmpty
        audio := (clauses.get? "audio").filter fun c => !c.isEmpty } := by
  obtain ⟨b, r, q, rfl, -, hq, he⟩ := choice?_eq_some h
  cases he
  obtain ⟨s, hs, hbracket⟩ := Option.bind_eq_some_iff.1 hq
  have hname := isName_of_bracketed? hbracket
  obtain ⟨harrowless, t, rfl, harrow⟩ := bracketed?_eq_some hbracket
  obtain ⟨front, back, name, -, -, -, -, rfl⟩ := arrow?_eq_some harrow
  -- Everything that is read stands on the line.
  have hmem : ∀ d, d ∈ q.1 ∨ d ∈ q.2.2 → d ∈ r := by
    intro d hd
    have hbracketed := eq_append_of_after? hs
    refine (List.dropWhile_suffix isAsciiBlank).mem ?_
    rw [hbracketed]
    rcases hd with hd | hd <;> simp [hd]
  have hline {s : List Char} (hs : ∀ d ∈ s, d ∈ r) : '\n' ∉ s := fun hd =>
    hbreak (List.mem_cons_of_mem _ (List.mem_cons_of_mem _ (hs _ hd)))
  have hclause (name : String) : ∀ v ∈ ((readClauses q.2.2).1.get? name).filter fun c => !c.isEmpty,
      IsClause v.toList := by
    intro v hv
    obtain ⟨hget, hempty⟩ := Option.filter_eq_some_iff.1 hv
    obtain ⟨hbalanced, htrim, hstands⟩ := of_mem_clauseList (Mapping.mem_of_get?_ofList hget)
    exact ⟨⟨by simpa using hempty, htrim⟩, hbalanced,
      hline fun d hd => hmem d (.inr (hstands d hd))⟩
  constructor
  case text =>
    rw [trimmed, String.toList_ofList, trim_trim]
  case arrowless =>
    rw [trimmed, String.toList_ofList, String.toList_ofList]
    exact harrowless.trim
  case unbroken =>
    rw [trimmed, String.toList_ofList, String.toList_ofList]
    exact hline fun d hd => hmem d (.inl (mem_of_mem_trim hd))
  case target => exact hname
  case clauses =>
    simp only [AreClauses, Choice.clauses, List.forall_mem_cons]
    exact ⟨⟨by decide, hclause "if"⟩, ⟨by decide, hclause "set"⟩, ⟨by decide, hclause "audio"⟩,
      List.forall_mem_nil _⟩

end

end Script

end Storyline
