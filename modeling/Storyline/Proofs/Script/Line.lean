import Storyline.Script.Line

/-!
# What a single line says

The forms of lines, taken apart.

## Main definitions

* `Form.onOneLine`: whether a form takes a single line

## Main results

* `lineForm?_cases`: the forms that a single line can have
* `onOneLine_of_lineForm?`: prose and fences are not among them
-/

namespace Storyline.Script

open Text

theorem choice?_eq_some {l : List Char} {p : Form × String} (h : choice? l = some p) :
    ∃ c r q, l = '*' :: c :: r ∧ isAsciiBlank c = true ∧
      (after? ['['] (r.dropWhile isAsciiBlank)).bind bracketed? = some q ∧
      p = (.choice (String.ofList q.1) q.2.1 (readClauses q.2.2).1, (readClauses q.2.2).2) := by
  unfold choice? at h
  split at h
  · next c r =>
    split at h
    · next hc =>
      obtain ⟨q, hq, rfl⟩ := Option.map_eq_some_iff.1 h
      exact ⟨c, r, q, rfl, hc, hq, rfl⟩
    · cases h
  · cases h

theorem image?_eq_some {l : List Char} {f : Form} (h : image? l = some f) :
    ∃ r url, after? ['!', '['] l = some r ∧
      (after? [']'] (r.drop (r.takeWhile (· != ']')).length)).bind address? = some url ∧
      f = .image url (String.ofList (r.takeWhile (· != ']'))) := by
  obtain ⟨r, hr, h⟩ := Option.bind_eq_some_iff.1 h
  obtain ⟨url, hurl, rfl⟩ := Option.map_eq_some_iff.1 h
  exact ⟨r, url, hr, hurl, rfl⟩

theorem audio?_eq_some {l : List Char} {f : Form} (h : audio? l = some f) :
    ∃ r url, after? "[audio]".toList l = some r ∧ address? r = some url ∧ f = .audio url := by
  obtain ⟨url, hl, rfl⟩ := Option.map_eq_some_iff.1 h
  obtain ⟨r, hr, hurl⟩ := Option.bind_eq_some_iff.1 hl
  exact ⟨r, url, hr, hurl, rfl⟩

theorem video?_eq_some {l : List Char} {f : Form} (h : video? l = some f) :
    ∃ r url, after? "[video]".toList l = some r ∧ address? r = some url ∧ f = .video url := by
  obtain ⟨url, hl, rfl⟩ := Option.map_eq_some_iff.1 h
  obtain ⟨r, hr, hurl⟩ := Option.bind_eq_some_iff.1 hl
  exact ⟨r, url, hr, hurl, rfl⟩

theorem narration?_eq_some {l : List Char} {f : Form} (h : narration? l = some f) :
    ∃ r t u, after? "<!--".toList l = some r ∧ after? "audio:".toList (trimLeft r) = some t ∧
      before? "-->".toList t = some u ∧ (trim u).isEmpty = false ∧ (trim u).any isBlank = false ∧
      f = .narration (String.ofList (trim u)) := by
  obtain ⟨r, hr, h⟩ := Option.bind_eq_some_iff.1 h
  obtain ⟨t, ht, h⟩ := Option.bind_eq_some_iff.1 h
  obtain ⟨u, hu, h⟩ := Option.bind_eq_some_iff.1 h
  dsimp only at h
  split at h
  · cases h
  · next hurl =>
    cases h
    rw [Bool.or_eq_true, not_or, Bool.not_eq_true, Bool.not_eq_true] at hurl
    exact ⟨r, t, u, hr, ht, hu, hurl.1, hurl.2, rfl⟩

/-- A line is a choice, or nothing of it is left out. -/
theorem lineForm?_cases {l : List Char} {f : Form} {leftover : String}
    (h : lineForm? l = some (f, leftover)) :
    choice? l = some (f, leftover) ∨
      leftover = "" ∧ (image? l = some f ∨ audio? l = some f ∨ video? l = some f ∨
        narration? l = some f) := by
  rcases Option.or_eq_some_iff.1 h with h | ⟨-, h⟩
  · exact .inl h
  · obtain ⟨g, hg, he⟩ := Option.map_eq_some_iff.1 h
    cases he
    refine .inr ⟨rfl, ?_⟩
    rcases Option.or_eq_some_iff.1 hg with hg | ⟨-, hg⟩
    · rcases Option.or_eq_some_iff.1 hg with hg | ⟨-, hg⟩
      · exact .inl hg
      · exact .inr (.inl hg)
    · rcases Option.or_eq_some_iff.1 hg with hg | ⟨-, hg⟩
      · exact .inr (.inr (.inl hg))
      · exact .inr (.inr (.inr hg))

/-- Whether a form takes a single line: prose and fences may take several. -/
def Form.onOneLine : Form → Bool
  | .text _ => false
  | .fence _ _ => false
  | _ => true

theorem onOneLine_of_lineForm? {l : List Char} {f : Form} {leftover : String}
    (h : lineForm? l = some (f, leftover)) : f.onOneLine = true := by
  rcases lineForm?_cases h with h | ⟨-, h | h | h | h⟩
  · obtain ⟨_, _, _, -, -, -, he⟩ := choice?_eq_some h
    cases he
    rfl
  · obtain ⟨_, _, -, -, rfl⟩ := image?_eq_some h
    rfl
  · obtain ⟨_, _, -, -, rfl⟩ := audio?_eq_some h
    rfl
  · obtain ⟨_, _, -, -, rfl⟩ := video?_eq_some h
    rfl
  · obtain ⟨_, _, _, -, -, -, -, -, rfl⟩ := narration?_eq_some h
    rfl

end Storyline.Script
