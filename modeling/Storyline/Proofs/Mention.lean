import Mathlib.Data.List.Basic
import Mathlib.Data.List.Induction
import Storyline.Mention
import Storyline.Proofs.Mapping

/-!
# The parts of a text with mentions

The names that a text mentions are listed by one scan of the text, and display names are put in
their place by another. Both read the same parts: in one way only, a text is a row of single
characters and mentions in which every name is as long as it can be and no mention is passed over.
The parts come from the text alone, so nothing is searched for in a display name, whatever stands in
it.

## Main definitions

* `Part`: a character by itself, or a mention
* `Parsed`: parts as they are read from a text

## Main results

* `exists_parsed`, `Parsed.eq_of_written_eq`: a text has exactly one row of parts
* `allMentions_written`, `fillMentionsIn_written`: what the two scans find in it
* `mentions_consistent`: what is shown for a text depends on the names that it mentions, and on
  nothing in the display names
-/

namespace Storyline.Mention

open Text

/-- A part of a text: a character by itself, or a mention of a name. -/
inductive Part where
  | char (c : Char)
  | mention (name : List Char)

/-- A part as it is written. -/
def Part.written : Part → List Char
  | .char c => [c]
  | .mention name => '@' :: name

/-- The name that a part mentions. -/
def Part.name? : Part → Option String
  | .char _ => none
  | .mention name => some (String.ofList name)

/-- A part as it is shown: for a mention stands the display name, unless it is empty or there is
none. -/
def Part.shown (name? : String → Option String) : Part → List Char
  | .char c => [c]
  | .mention name =>
    ((name? (String.ofList name)).filter (· ≠ "")).elim ('@' :: name) String.toList

/-- Parts as they are written. -/
def written (ps : List Part) : List Char :=
  ps.flatMap Part.written

/-- Whether no name goes on at the start of a text. -/
def EndsName (s : List Char) : Prop :=
  ∀ c ∈ s.head?, isWord c = false

/-- Parts as they are read from a text: a name is not empty and as long as it can be, and an at sign
by itself has no name behind it. -/
inductive Parsed : List Part → Prop where
  | nil : Parsed []
  | char {c : Char} {ps : List Part} (hlone : c = '@' → EndsName (written ps)) (hps : Parsed ps) :
      Parsed (.char c :: ps)
  | mention {name : List Char} {ps : List Part} (hne : name ≠ [])
      (hword : ∀ c ∈ name, isWord c = true) (hend : EndsName (written ps)) (hps : Parsed ps) :
      Parsed (.mention name :: ps)

section

variable {c : Char} {r s name rest : List Char} {ps qs : List Part} {name? : String → Option String}

/-! ## One part -/

theorem takeWhile_eq_nil_iff : r.takeWhile isWord = [] ↔ EndsName r := by
  cases r with
  | nil => simp [EndsName]
  | cons d r => cases hd : isWord d <;> simp [EndsName, hd]

/-- A text begins with no mention unless an at sign and a name stand there. -/
theorem mention?_eq_none_iff : mention? (c :: r) = none ↔ (c = '@' → EndsName r) := by
  by_cases hc : c = '@'
  · subst hc
    rw [mention?, ← takeWhile_eq_nil_iff]
    cases r.takeWhile isWord <;> simp
  · simp [mention?, hc]

/-- A text begins with a mention exactly if an at sign stands there and a name behind it, which is
then taken as far as it goes. -/
theorem mention?_eq_some_iff : mention? s = some (name, rest) ↔
    s = '@' :: (name ++ rest) ∧ name ≠ [] ∧ (∀ c ∈ name, isWord c = true) ∧ EndsName rest := by
  constructor
  · intro h
    unfold mention? at h
    split at h
    · next r =>
      split at h
      · cases h
      · next hname =>
        cases h
        refine ⟨?_, hname, fun c hc => List.all_eq_true.1 List.all_takeWhile c hc, ?_⟩
        · rw [List.takeWhile_append_dropWhile]
        · intro d hd
          have hnot := List.head?_dropWhile_not isWord r
          rwa [hd] at hnot
    · cases h
  · rintro ⟨rfl, hne, hword, hend⟩
    have htake : (name ++ rest).takeWhile isWord = name := by
      rw [List.takeWhile_append_of_pos hword, takeWhile_eq_nil_iff.2 hend, List.append_nil]
    have hdrop : (name ++ rest).dropWhile isWord = rest := by
      have hcut := List.takeWhile_append_dropWhile (p := isWord) (l := name ++ rest)
      rwa [htake, List.append_cancel_left_eq] at hcut
    rw [mention?, htake, hdrop]
    obtain ⟨d, ds, rfl⟩ := List.exists_cons_of_ne_nil hne
    rfl

/-- A character by itself begins no mention. -/
theorem mention?_char (hlone : c = '@' → EndsName (written ps)) :
    mention? (written (.char c :: ps)) = none :=
  mention?_eq_none_iff.2 hlone

/-- A mention is read as it is written, up to the end of its name. -/
theorem mention?_mention (hne : name ≠ []) (hword : ∀ c ∈ name, isWord c = true)
    (hend : EndsName (written ps)) :
    mention? (written (.mention name :: ps)) = some (name, written ps) :=
  mention?_eq_some_iff.2 ⟨rfl, hne, hword, hend⟩

/-! ## The two scans -/

theorem allMentions_char (h : mention? (c :: r) = none) : allMentions (c :: r) = allMentions r := by
  rw [allMentions]
  split
  · next hsome =>
    rw [h] at hsome
    cases hsome
  · rfl

theorem allMentions_mention (h : mention? (c :: r) = some (name, rest)) :
    allMentions (c :: r) = String.ofList name :: allMentions rest := by
  rw [allMentions]
  split
  · next hsome =>
    rw [h] at hsome
    cases hsome
    rfl
  · next hnone =>
    rw [h] at hnone
    cases hnone

theorem fillMentionsIn_char (h : mention? (c :: r) = none) :
    fillMentionsIn name? (c :: r) = c :: fillMentionsIn name? r := by
  rw [fillMentionsIn]
  split
  · next hsome =>
    rw [h] at hsome
    cases hsome
  · rfl

theorem fillMentionsIn_mention (h : mention? (c :: r) = some (name, rest)) :
    fillMentionsIn name? (c :: r) =
      (Part.mention name).shown name? ++ fillMentionsIn name? rest := by
  rw [fillMentionsIn]
  split
  · next hsome =>
    rw [h] at hsome
    cases hsome
    rw [Part.shown]
    cases name? (String.ofList name) with
    | none => rfl
    | some d =>
      by_cases hd : d = "" <;> simp [Option.filter, hd]
  · next hnone =>
    rw [h] at hnone
    cases hnone

/-- The names that are found are those of the parts. -/
theorem allMentions_written (h : Parsed ps) :
    allMentions (written ps) = ps.filterMap Part.name? := by
  induction h with
  | nil => rw [written, List.flatMap_nil, allMentions, List.filterMap_nil]
  | char hlone _ ih => exact (allMentions_char (mention?_char hlone)).trans ih
  | mention hne hword hend _ ih =>
    exact (allMentions_mention (mention?_mention hne hword hend)).trans (congrArg _ ih)

/-- What is shown is shown part by part. -/
theorem fillMentionsIn_written (h : Parsed ps) (name? : String → Option String) :
    fillMentionsIn name? (written ps) = ps.flatMap (Part.shown name?) := by
  induction h with
  | nil => rw [written, List.flatMap_nil, fillMentionsIn, List.flatMap_nil]
  | char hlone _ ih => exact (fillMentionsIn_char (mention?_char hlone)).trans (congrArg _ ih)
  | mention hne hword hend _ ih =>
    exact (fillMentionsIn_mention (mention?_mention hne hword hend)).trans (congrArg _ ih)

/-! ## The parts of a text -/

theorem exists_parsed (s : List Char) : ∃ ps, Parsed ps ∧ written ps = s := by
  -- The parts come off the text as the scan for names takes them.
  induction s using allMentions.induct with
  | case1 => exact ⟨[], .nil, rfl⟩
  | case2 c r name rest hsome ih =>
    obtain ⟨ps, hps, rfl⟩ := ih
    obtain ⟨htext, hne, hword, hend⟩ := mention?_eq_some_iff.1 hsome
    exact ⟨.mention name :: ps, .mention hne hword hend hps, htext.symm⟩
  | case3 c r hnone ih =>
    obtain ⟨ps, hps, rfl⟩ := ih
    exact ⟨.char c :: ps, .char (mention?_eq_none_iff.1 hnone) hps, rfl⟩

/-- A text is read in one way only: whether it begins with a mention, and with which, the text
decides. -/
theorem Parsed.eq_of_written_eq (hps : Parsed ps) (hqs : Parsed qs) (h : written ps = written qs) :
    ps = qs := by
  have hread : mention? (written ps) = mention? (written qs) := congrArg _ h
  induction hps generalizing qs with
  | nil =>
    cases hqs with
    | nil => rfl
    | char _ _ => cases h
    | mention _ _ _ _ => cases h
  | char hlone _ ih =>
    rw [mention?_char hlone] at hread
    cases hqs with
    | nil => cases h
    | char _ hqs =>
      obtain ⟨rfl, hrest⟩ := List.cons.inj h
      rw [ih hqs hrest (congrArg _ hrest)]
    | mention hne hword hend _ =>
      rw [mention?_mention hne hword hend] at hread
      cases hread
  | mention hne hword hend _ ih =>
    rw [mention?_mention hne hword hend] at hread
    cases hqs with
    | nil => cases h
    | char hlone _ =>
      rw [mention?_char hlone] at hread
      cases hread
    | mention hne' hword' hend' hqs =>
      rw [mention?_mention hne' hword' hend'] at hread
      obtain ⟨rfl, hrest⟩ := Prod.mk.inj (Option.some.inj hread)
      rw [ih hqs hrest (congrArg _ hrest)]

/-! ## Names and display names -/

/-- The names of a text, in order and without repeats. -/
theorem mentions_eq (text : String) : mentions text = (allMentions text.toList).eraseDups := by
  rw [mentions]
  induction allMentions text.toList using List.reverseRecOn with
  | nil => rfl
  | append_singleton names n ih =>
    rw [List.foldl_append, ih, Mapping.eraseDups_concat, List.foldl_cons, List.foldl_nil]
    simp

/-- A part is shown by the display name of the name that it mentions, and otherwise as written. -/
theorem shown_congr {p : Part} {name?' : String → Option String}
    (h : ∀ id ∈ p.name?, name? id = name?' id) : p.shown name? = p.shown name?' := by
  cases p with
  | char c => rfl
  | mention name => rw [Part.shown, Part.shown, h _ rfl]

theorem shown_eq_written {p : Part} (h : ∀ id ∈ p.name?, ∀ d ∈ name? id, d = "") :
    p.shown name? = p.written := by
  cases p with
  | char c => rfl
  | mention name =>
    have hname := h _ rfl
    rw [Part.shown, Part.written]
    cases hd : name? (String.ofList name) with
    | none => rfl
    | some d => rw [hname d hd]; rfl

/-- **What is shown for a text depends on the names that it mentions, and on nothing in the display
names.** Display names may come from anywhere; where there are no characters, no name has one. If
two sources give the names of a text the same display names, or none, the same is shown; if none of
the names has one that is not empty, the text is shown as it is. A text is a row of parts in one way
only; its mentions are those of the parts, and whatever the display names are, each part is shown by
itself. -/
theorem mentions_consistent (text : String) :
    (∀ first second : String → Option String, (∀ id ∈ mentions text, first id = second id) →
        fillMentions text first = fillMentions text second) ∧
      (∀ name? : String → Option String, (∀ id ∈ mentions text, ∀ d ∈ name? id, d = "") →
        fillMentions text name? = text) ∧
      ∃ ps, (∀ qs, Parsed qs ∧ written qs = text.toList ↔ qs = ps) ∧
        mentions text = (ps.filterMap Part.name?).eraseDups ∧
        ∀ name? : String → Option String,
          (fillMentions text name?).toList = ps.flatMap (Part.shown name?) := by
  obtain ⟨ps, hps, htext⟩ := exists_parsed text.toList
  have hmentions : mentions text = (ps.filterMap Part.name?).eraseDups := by
    rw [mentions_eq, ← htext, allMentions_written hps]
  have hmem {p : Part} (hp : p ∈ ps) : ∀ id ∈ p.name?, id ∈ mentions text := by
    intro id hid
    rw [hmentions, List.mem_eraseDups]
    exact List.mem_filterMap.2 ⟨p, hp, hid⟩
  have hfill (name? : String → Option String) :
      fillMentions text name? = String.ofList (ps.flatMap (Part.shown name?)) := by
    rw [fillMentions, ← htext, fillMentionsIn_written hps]
  refine ⟨fun first second h => ?_, fun name? h => ?_, ps, fun qs => ⟨?_, ?_⟩, hmentions, ?_⟩
  · rw [hfill, hfill]
    have hshown : ∀ p ∈ ps, p.shown first = p.shown second := fun p hp =>
      shown_congr fun id hid => h id (hmem hp id hid)
    rw [List.flatMap_congr hshown]
  · have hshown : ∀ p ∈ ps, p.shown name? = p.written := fun p hp =>
      shown_eq_written fun id hid => h id (hmem hp id hid)
    rw [hfill, List.flatMap_congr hshown, ← written, htext, String.ofList_toList]
  · rintro ⟨hqs, hq⟩
    exact hqs.eq_of_written_eq hps (hq.trans htext.symm)
  · rintro rfl
    exact ⟨hps, htext⟩
  · intro name?
    rw [hfill, String.toList_ofList]

end

/-- The display names of one telling of a tale. -/
def firstNames : Mapping String :=
  Mapping.ofList [("ash", "@fox"), ("fox", "Reynard"), ("owl", "Strix")]

/-- Those of another telling, which agrees on the ash and the fox. -/
def secondNames : Mapping String :=
  Mapping.ofList [("owl", "Tawny"), ("fox", "Reynard"), ("ash", "@fox")]

/-- Of two at signs only the second belongs to a mention, and a display name that looks like a
mention is left as it is. -/
theorem mentions_consistent_tale :
    (∀ id ∈ mentions "@ash, @@fox and @ ash@ash", firstNames.get? id = secondNames.get? id) ∧
      fillMentions "@ash, @@fox and @ ash@ash" firstNames.get? =
        fillMentions "@ash, @@fox and @ ash@ash" secondNames.get? ∧
      (∀ id ∈ mentions "@ash, @@fox and @ ash@ash",
        ∀ d ∈ (Mapping.ofList [("ash", "")]).get? id, d = "") ∧
      fillMentions "@ash, @@fox and @ ash@ash" (Mapping.ofList [("ash", "")]).get? =
        "@ash, @@fox and @ ash@ash" ∧
      fillMentions "@ash, @@fox and @ ash@ash" firstNames.get? =
        "@fox, @Reynard and @ ash@fox" := by
  obtain ⟨hsame, hplain, -⟩ := mentions_consistent "@ash, @@fox and @ ash@ash"
  have hfound : mentions "@ash, @@fox and @ ash@ash" = ["ash", "fox"] := by decide +kernel
  have hagree : ∀ id ∈ mentions "@ash, @@fox and @ ash@ash",
      firstNames.get? id = secondNames.get? id := by
    rw [hfound]
    decide
  have hempty : ∀ id ∈ mentions "@ash, @@fox and @ ash@ash",
      ∀ d ∈ (Mapping.ofList [("ash", "")]).get? id, d = "" := by
    rw [hfound]
    decide
  exact ⟨hagree, hsame _ _ hagree, hempty, hplain _ hempty, by decide +kernel⟩

end Storyline.Mention
