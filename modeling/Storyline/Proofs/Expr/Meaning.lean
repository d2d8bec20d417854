import Storyline.Proofs.Expr.Tag
import Storyline.Proofs.Outcome

/-!
# The meaning of templates

A template is a row of parts: text that is kept, variables that stand for their values, and blocks
of which a condition keeps one branch. Its meaning is put together from the meanings of its parts;
reading the written template with the variables of a story gives that meaning.

## Main definitions

* `Literal`, `Name`, `Guard`: text that is kept, the name of a variable, the condition of a block
* `Segment`, `Part`: what branches and templates are made of
* `Part.text`, `templateText`: a template as it is written
* `Part.meaning`, `templateMeaning`: what it stands for

## Main results

* `block?_part`: a block is read up to its own end
* `fillBlocks_templateText`, `fillNames_segmentsText`: the two passes
* `interpolate_templateText`: reading a template gives its meaning
-/

namespace Storyline.Expr

open Text

/-! ## Templates -/

/-- Text that is kept: no brace opens in it. -/
structure Literal where
  text : List Char
  plain : '{' ∉ text

/-- The name of a variable, which is not the word between the branches of a block. -/
structure Name where
  text : List Char
  ne_nil : text ≠ []
  word : ∀ c ∈ text, isWord c = true
  not_else : text.map Char.toLower ≠ "else".toList

/-- The condition of a block, on one line, without closing braces and blank ends. -/
structure Guard where
  text : List Char
  ne_nil : text ≠ []
  trimmed : trim text = text
  noBrace : '}' ∉ text
  oneLine : '\n' ∉ text

/-- What a branch is made of. -/
inductive Segment where
  | literal (l : Literal)
  | name (n : Name)

/-- What a template is made of; a block may be without a second branch. -/
inductive Part where
  | segment (s : Segment)
  | block (guard : Guard) (yes : List Segment) (no : Option (List Segment))

/-- A segment as it is written. -/
def Segment.text : Segment → List Char
  | .literal l => l.text
  | .name n => placeholder n.text

/-- Segments as they are written. -/
def segmentsText (ss : List Segment) : List Char :=
  ss.flatMap Segment.text

theorem segmentsText_append (ss ts : List Segment) :
    segmentsText (ss ++ ts) = segmentsText ss ++ segmentsText ts :=
  List.flatMap_append

/-- What is written after the first branch of a block. -/
def afterYes (no : Option (List Segment)) : List Char :=
  (no.elim [] fun ss => tag "else".toList ++ segmentsText ss) ++ tag "/if".toList

/-- A part as it is written. -/
def Part.text : Part → List Char
  | .segment s => s.text
  | .block guard yes no => tag ("if ".toList ++ guard.text) ++ segmentsText yes ++ afterYes no

/-- A template as it is written. -/
def templateText (ps : List Part) : List Char :=
  ps.flatMap Part.text

/-! ## Meaning -/

/-- A segment stands for its text, or for the value of its variable; a variable that is not there
stays as it is written. -/
def Segment.meaning (state : State) : Segment → Except NumberFault (List Char)
  | .literal l => .ok l.text
  | .name n =>
    match state.get? (String.ofList n.text) with
    | some v => (Operand.display (some v)).map String.toList
    | none => .ok (placeholder n.text)

/-- Segments stand for what they stand for one after the other. -/
def segmentsMeaning (state : State) (ss : List Segment) : Except NumberFault (List Char) := do
  return (← ss.mapM (Segment.meaning state)).flatten

/-- The segments that are kept of a part: of a block the branch that its condition chooses. -/
def Part.kept (state : State) : Part → Except NumberFault (List Segment)
  | .segment s => .ok [s]
  | .block guard yes no => do
    let holds ← (evaluate (some (String.ofList guard.text)) state).result
    return if holds then yes else no.getD []

/-- A part stands for what is kept of it. -/
def Part.meaning (state : State) (p : Part) : Except NumberFault (List Char) := do
  segmentsMeaning state (← p.kept state)

/-- A template stands for what its parts stand for one after the other. -/
def templateMeaning (state : State) (ps : List Part) : Except NumberFault (List Char) := do
  return (← ps.mapM (Part.meaning state)).flatten

/-! ## Reading segments -/

variable {α : Type} {f : List Char → Option α}

theorem silent_literal (hf : OpensWithBraces f) (l : Literal) (rest : List Char) :
    Silent f l.text rest :=
  silent_of_notMem hf l.plain rest

/-- Segments are passed over if their variables are. -/
theorem silent_segmentsText (hf : OpensWithBraces f)
    (hname : ∀ (n : Name) rest, f (placeholder n.text ++ rest) = none) (ss : List Segment)
    (rest : List Char) : Silent f (segmentsText ss) rest := by
  induction ss with
  | nil => trivial
  | cons s ss ih =>
    rw [segmentsText, List.flatMap_cons, silent_append]
    refine ⟨?_, ih⟩
    cases s with
    | literal l => exact silent_literal hf l _
    | name n => exact silent_placeholder hf n.word (hname n _)

theorem silent_else (ss : List Segment) (rest : List Char) :
    Silent (afterTag? "else") (segmentsText ss) rest :=
  silent_segmentsText (opensWithBraces_afterTag? _)
    (fun n => afterTag?_placeholder_else n.word n.not_else) ss rest

theorem silent_end (ss : List Segment) (rest : List Char) :
    Silent (afterTag? "/if") (segmentsText ss) rest :=
  silent_segmentsText (opensWithBraces_afterTag? _) (fun n => afterTag?_placeholder_end n.word)
    ss rest

theorem silent_block (ss : List Segment) (rest : List Char) :
    Silent block? (segmentsText ss) rest :=
  silent_segmentsText opensWithBraces_block? (fun n => block?_placeholder n.word) ss rest

/-! ## Reading blocks -/

theorem untilEnd?_segmentsText (ss : List Segment) (rest : List Char) :
    untilEnd? (segmentsText ss ++ (tag "/if".toList ++ rest)) = some (segmentsText ss, rest) := by
  have hend : untilEnd? (tag "/if".toList ++ rest) = some ([], rest) := rfl
  rw [untilEnd?_append (silent_end ss _), hend]
  simp

/-- The branches of a block end at its own tags. -/
theorem branches?_segmentsText (yes : List Segment) (no : Option (List Segment))
    (rest : List Char) :
    branches? (segmentsText yes ++ (afterYes no ++ rest)) =
      some ⟨segmentsText yes, segmentsText (no.getD []), rest⟩ := by
  have hafter : branches? (afterYes no ++ rest) = some ⟨[], segmentsText (no.getD []), rest⟩ := by
    cases no with
    | none => rfl
    | some ss =>
      -- The first branch is tried before the tag, and it is empty here.
      have hopen : afterYes (some ss) ++ rest =
          '{' :: (tag "else".toList).tail ++ (segmentsText ss ++ (tag "/if".toList ++ rest)) := by
        simp [afterYes, tag]
      have helse : afterTag? "else" ('{' :: (tag "else".toList).tail ++
          (segmentsText ss ++ (tag "/if".toList ++ rest))) =
            some (segmentsText ss ++ (tag "/if".toList ++ rest)) := afterTag?_else _
      rw [hopen, List.cons_append, branches?, ← List.cons_append, helse, Option.bind_some,
        untilEnd?_segmentsText]
      rfl
  rw [branches?_append (silent_else yes _) (silent_end yes _), hafter]
  simp

theorem Guard.head (g : Guard) : ∀ c ∈ g.text.head?, isBlank c = false := by
  rw [← g.trimmed]
  exact isBlank_of_mem_head?_trim

theorem Guard.last (g : Guard) : ∀ c ∈ g.text.getLast?, isBlank c = false := by
  rw [← g.trimmed]
  exact isBlank_of_mem_getLast?_trim

/-- **A block is read up to its own end**, whatever follows it. -/
theorem block?_part (g : Guard) (yes : List Segment) (no : Option (List Segment))
    (rest : List Char) :
    block? ((Part.block g yes no).text ++ rest) =
      some ⟨g.text, segmentsText yes, segmentsText (no.getD []), rest⟩ := by
  have htext : (Part.block g yes no).text ++ rest =
      '{' :: '{' :: ' ' :: 'i' :: 'f' :: ' ' ::
        (g.text ++ ' ' :: '}' :: '}' :: (segmentsText yes ++ (afterYes no ++ rest))) := by
    simp [Part.text, tag]
  have hcondition := conditionAndBranches?_append g.ne_nil g.noBrace g.oneLine g.last
    (branches?_segmentsText yes no rest) []
  have hhead : ∀ c ∈ (g.text ++ ' ' :: '}' :: '}' ::
      (segmentsText yes ++ (afterYes no ++ rest))).head?, isBlank c = false := by
    rw [List.head?_append_of_ne_nil _ g.ne_nil]
    exact g.head
  rw [htext]
  show afterBlanks? (' ' :: _) = _
  rw [afterBlanks?_space hhead, hcondition]
  rfl

/-! ## The two passes -/

variable {state : State}

/-- The first pass over a part keeps what is kept of it, and goes on after it. -/
theorem fillBlocks_part (p : Part) (rest : List Char) :
    (fillBlocks state (p.text ++ rest)).result =
      p.kept state >>= fun ss => (fillBlocks state rest).result.map (segmentsText ss ++ ·) := by
  cases p with
  | segment s =>
    have hsilent : Silent block? s.text rest := by
      have h := silent_block [s] rest
      rwa [segmentsText, List.flatMap_singleton] at h
    rw [Part.text, fillBlocks_append hsilent]
    show _ = (fillBlocks state rest).result.map (segmentsText [s] ++ ·)
    rw [segmentsText, List.flatMap_singleton]
  | block g yes no =>
    have hblock := block?_part g yes no rest
    -- The pass looks at the text one character at a time, so the first one is set apart.
    obtain ⟨c, r, htext⟩ := List.exists_cons_of_ne_nil
      (show (Part.block g yes no).text ++ rest ≠ [] by simp [Part.text, tag])
    rw [htext] at hblock ⊢
    rw [fillBlocks]
    split
    · next b hb =>
      rw [hblock] at hb
      cases hb
      have hguard : (evaluate (some (String.ofList g.text)) state) =
          evaluateChars g.text state := by rw [evaluate, String.toList_ofList]
      rw [Part.kept, hguard]
      simp only [Logged.result_bind]
      cases (evaluateChars g.text state).result with
      | error f => rfl
      | ok holds =>
        cases (fillBlocks state rest).result <;> cases holds <;> rfl
    · next hb =>
      rw [hblock] at hb
      cases hb

/-- **The first pass** leaves the segments that are kept. -/
theorem fillBlocks_templateText (ps : List Part) :
    (fillBlocks state (templateText ps)).result =
      (ps.mapM (Part.kept state)).map fun sss => segmentsText sss.flatten := by
  induction ps with
  | nil =>
    rw [templateText, List.flatMap_nil, fillBlocks]
    rfl
  | cons p ps ih =>
    rw [templateText, List.flatMap_cons, fillBlocks_part, ← templateText, ih, List.mapM_cons]
    cases p.kept state with
    | error f => rfl
    | ok ss =>
      cases ps.mapM (Part.kept state) with
      | error f => rfl
      | ok sss =>
        exact congrArg Except.ok (segmentsText_append ss sss.flatten).symm

/-- The second pass over a segment puts what it stands for, and goes on after it. -/
theorem fillNames_segment (s : Segment) (rest : List Char) :
    fillNames state (s.text ++ rest) =
      s.meaning state >>= fun t => (fillNames state rest).map (t ++ ·) := by
  cases s with
  | literal l => exact fillNames_append (silent_literal opensWithBraces_name? l rest) state
  | name n =>
    have hname := name?_placeholder n.ne_nil n.word rest
    obtain ⟨c, r, htext⟩ := List.exists_cons_of_ne_nil
      (show placeholder n.text ++ rest ≠ [] by simp [placeholder])
    rw [Segment.text, Segment.meaning]
    rw [htext] at hname ⊢
    rw [fillNames]
    split
    · next name rest' hn =>
      rw [hname] at hn
      cases hn
      -- A variable that is not there stays as it is written.
      cases state.get? (String.ofList n.text) with
      | none => cases fillNames state rest <;> rfl
      | some v =>
        cases hv : Operand.display (some v) with
        | error f => simp [hv, Except.map, bind, Except.bind]
        | ok shown =>
          cases fillNames state rest <;>
            simp [hv, Except.map, bind, Except.bind, pure, Except.pure]
    · next hn =>
      rw [hname] at hn
      cases hn

/-- **The second pass** gives what the segments stand for. -/
theorem fillNames_segmentsText (ss : List Segment) :
    fillNames state (segmentsText ss) = segmentsMeaning state ss := by
  induction ss with
  | nil =>
    rw [segmentsText, List.flatMap_nil, fillNames]
    rfl
  | cons s ss ih =>
    rw [segmentsText, List.flatMap_cons, fillNames_segment, ← segmentsText, ih, segmentsMeaning,
      segmentsMeaning, List.mapM_cons]
    cases s.meaning state with
    | error f => rfl
    | ok t => cases ss.mapM (Segment.meaning state) <;> rfl

/-! ## Both passes -/

theorem segmentsMeaning_append (ss ts : List Segment) :
    segmentsMeaning state (ss ++ ts) =
      segmentsMeaning state ss >>= fun s => (segmentsMeaning state ts).map (s ++ ·) := by
  rw [segmentsMeaning, segmentsMeaning, segmentsMeaning, List.mapM_append]
  cases ss.mapM (Segment.meaning state) with
  | error f => rfl
  | ok texts =>
    cases ts.mapM (Segment.meaning state) with
    | error f => rfl
    | ok texts' =>
      show Except.ok _ = Except.ok _
      rw [List.flatten_append]

theorem templateMeaning_cons (p : Part) (ps : List Part) :
    templateMeaning state (p :: ps) =
      p.meaning state >>= fun s => (templateMeaning state ps).map (s ++ ·) := by
  rw [templateMeaning, templateMeaning, List.mapM_cons]
  cases p.meaning state with
  | error f => rfl
  | ok s => cases ps.mapM (Part.meaning state) <;> rfl

/-- What is kept of parts stands for what the parts stand for. All conditions are read before any
variable, so of several faults it is not always the same one that comes first. -/
theorem segmentsMeaning_kept {ps : List Part} {out : List Char} :
    (ps.mapM (Part.kept state) >>= fun sss => segmentsMeaning state sss.flatten) = .ok out ↔
      templateMeaning state ps = .ok out := by
  induction ps generalizing out with
  | nil => exact Iff.rfl
  | cons p ps ih =>
    rw [List.mapM_cons, templateMeaning_cons, Part.meaning]
    simp only [bind_assoc, pure_bind, List.flatten_cons, segmentsMeaning_append,
      Except.bind_eq_ok_iff, Except.map_eq_ok_iff]
    -- Both sides ask for the same results; only the order of the second and third differs.
    constructor
    · rintro ⟨ss, hss, sss, hsss, s, hs, t, ht, rfl⟩
      exact ⟨ss, hss, s, hs, t, ih.1 (Except.bind_eq_ok_iff.2 ⟨sss, hsss, ht⟩), rfl⟩
    · rintro ⟨ss, hss, s, hs, t, ht, rfl⟩
      obtain ⟨sss, hsss, ht⟩ := Except.bind_eq_ok_iff.1 (ih.2 ht)
      exact ⟨ss, hss, sss, hsss, s, hs, t, ht, rfl⟩

/-- **Reading a template gives its meaning**: text is kept, a variable that is there is replaced by
its value and any other stays as it is written, and of each block the branch that its condition
chooses is kept. A value is put as it is and is not read again, whatever it holds. -/
theorem interpolate_templateText (ps : List Part) (state : State) (out : String) :
    (interpolate (String.ofList (templateText ps)) state).result = .ok out ↔
      templateMeaning state ps = .ok out.toList := by
  rw [interpolate, String.toList_ofList, Logged.result_bind, fillBlocks_templateText,
    ← segmentsMeaning_kept]
  simp only [Except.bind_eq_ok_iff, Except.map_eq_ok_iff, Logged.result_bind, Logged.result_lift,
    Logged.result_pure]
  constructor
  · rintro ⟨_, ⟨sss, hsss, rfl⟩, s, hs, hout⟩
    cases hout
    rw [String.toList_ofList]
    exact ⟨sss, hsss, (fillNames_segmentsText sss.flatten).symm.trans hs⟩
  · rintro ⟨sss, hsss, hs⟩
    exact ⟨_, ⟨sss, hsss, rfl⟩, _, (fillNames_segmentsText sss.flatten).trans hs,
      congrArg Except.ok String.ofList_toList⟩

/-- A value that is written like a variable stays as it is. -/
example : (interpolate "\x7b\x7ba\x7d\x7d and \x7b\x7bc\x7d\x7d"
    (Mapping.ofList [("a", .str "\x7b\x7bb\x7d\x7d"), ("b", .int 1)])).result =
      .ok "\x7b\x7bb\x7d\x7d and \x7b\x7bc\x7d\x7d" := by
  cbv

end Storyline.Expr
