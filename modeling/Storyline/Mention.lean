import Storyline.Text.Blank
import Storyline.Mapping

/-!
# Mentions

A mention is an at sign and a name, `@wolf`.  Scene text mentions characters by name; where the text
is shown, the display name of the character stands in its place.

## Main definitions

* `mention?`: the name that a text begins to mention
* `mentions`: the names that a text mentions
* `fillMentions`: the text with display names
-/

namespace Storyline

open Text

/-- The name that a text begins to mention, as long as possible, and the text after it. -/
def mention? : List Char → Option (List Char × List Char)
  | '@' :: r =>
    match r.takeWhile isWord with
    | [] => none
    | n => some (n, r.dropWhile isWord)
  | _ => none

theorem length_lt_of_mention? {s : List Char} {p : List Char × List Char}
    (h : mention? s = some p) : p.2.length < s.length := by
  unfold mention? at h
  split at h
  · next r =>
    split at h
    · simp at h
    · cases h
      have := (List.dropWhile_sublist isWord (l := r)).length_le
      simp only [List.length_cons]
      omega
  · simp at h

/-- The names that a text mentions, in order and with repeats. -/
def allMentions (s : List Char) : List String :=
  match s with
  | [] => []
  | c :: r =>
    match _h : mention? (c :: r) with
    | some (name, rest) => String.ofList name :: allMentions rest
    | none => allMentions r
termination_by s.length
decreasing_by
  · exact length_lt_of_mention? _h
  · simp

/-- The names that a text mentions, in order of first mention. -/
def mentions (text : String) : List String :=
  (allMentions text.toList).foldl
    (fun names n => if names.contains n then names else names ++ [n]) []

/-- A text with display names in place of mentions; a name without a display name, or with an empty
one, stays as written. -/
def fillMentionsIn (name? : String → Option String) (s : List Char) : List Char :=
  match s with
  | [] => []
  | c :: r =>
    match _h : mention? (c :: r) with
    | some (name, rest) =>
      let shown := match name? (String.ofList name) with
        | some d => if d.isEmpty then '@' :: name else d.toList
        | none => '@' :: name
      shown ++ fillMentionsIn name? rest
    | none => c :: fillMentionsIn name? r
termination_by s.length
decreasing_by
  · exact length_lt_of_mention? _h
  · simp

/-- A text with display names in place of mentions. -/
def fillMentions (text : String) (name? : String → Option String) : String :=
  String.ofList (fillMentionsIn name? text.toList)

end Storyline
