import Storyline.Lint.Script
import Storyline.Proofs.Script.Normal

/-!
# The parts of a script among its lines

A script is read in parts, front matter and scenes, after the byte order marks in front of it are
taken away. It is checked line by line from its first character on. Both count the same lines, and
only the first of them may differ, by the marks in front of it.

## Main definitions

* `readLines`: the lines of a script that are read
* `metadataLine`: the line on which front matter opens

## Main results

* `split?_eq_some`: the lines of which the parts of a script consist
* `exists_scriptLines`: the lines that are read and those that are checked
-/

namespace Storyline.Script

open Text

/-! ## Lines -/

/-- The lines of a script that are read: byte order marks in front are left out. -/
def readLines (source : String) : List (List Char) :=
  lines (normalizeBreaks (source.toList.dropWhile (· = '\uFEFF')))

/-- The blank lines in front of front matter. -/
def blankFront (source : String) : List (List Char) :=
  (readLines source).takeWhile fun l => (trim l).isEmpty

/-- The line on which front matter opens. -/
def metadataLine (source : String) : Nat :=
  (blankFront source).length + 1

/-- A script that is read begins, after blank lines, with front matter between two rules. -/
theorem split?_eq_some {source : String} {p : Parts} (h : split? source = some p) :
    ∃ opening metadata closing body,
      readLines source = blankFront source ++ opening :: (metadata ++ closing :: body) ∧
        isRule opening = true ∧ isRule closing = true ∧ (∀ l ∈ metadata, isRule l = false) ∧
        p = { metadata := String.ofList (unlines metadata), body := String.ofList (unlines body),
              bodyLine := (blankFront source).length + metadata.length + 3 } := by
  have hcut : blankFront source ++ (readLines source).dropWhile (fun l => (trim l).isEmpty) =
      readLines source := List.takeWhile_append_dropWhile
  have hdrop : (readLines source).drop (blankFront source).length =
      (readLines source).dropWhile fun l => (trim l).isEmpty := by
    conv => lhs; rw [← hcut]
    exact List.drop_left
  change splitLines? (readLines source) = some p at h
  unfold splitLines? at h
  dsimp only at h
  rw [← blankFront, hdrop] at h
  split at h
  · cases h
  · next opening rest hrest =>
    split at h
    · next hopening =>
      obtain ⟨⟨metadata, body⟩, huntil, rfl⟩ := Option.map_eq_some_iff.1 h
      obtain ⟨⟨closing, hclosing, rfl⟩, hmetadata⟩ := isRule_of_untilRule? huntil
      refine ⟨opening, metadata, closing, body, ?_, hopening, hclosing, hmetadata, rfl⟩
      rw [← hrest, hcut]
    · cases h

end Storyline.Script

namespace Storyline.Lint

open Text Script

/-- The lines that are checked are those that are read, with the byte order marks in front of the
first. -/
theorem exists_scriptLines (source : String) : ∃ marks l ls, (∀ c ∈ marks, c = '\uFEFF') ∧
    readLines source = l :: ls ∧ scriptLines source = (marks ++ l) :: ls := by
  obtain ⟨l, ls, hread⟩ := List.exists_cons_of_ne_nil
    (lines_ne_nil (normalizeBreaks (source.toList.dropWhile (· = '\uFEFF'))))
  have hsource := (List.takeWhile_append_dropWhile (l := source.toList) (p := (· = '\uFEFF'))).symm
  have hmarks : ∀ c ∈ source.toList.takeWhile (· = '\uFEFF'), c = '\uFEFF' := fun c hc =>
    of_decide_eq_true (List.all_eq_true.1 List.all_takeWhile c hc)
  refine ⟨_, l, ls, hmarks, hread, ?_⟩
  generalize source.toList.takeWhile (· = '\uFEFF') = marks at hmarks hsource ⊢
  -- No mark is a part of a line break, so the marks only lengthen the first line.
  have hreturn : '\r' ∉ marks := fun hmem => absurd (hmarks '\r' hmem) (by decide)
  have hfeed : '\n' ∉ marks := fun hmem => absurd (hmarks '\n' hmem) (by decide)
  rw [scriptLines, hsource, normalizeBreaks_append hreturn, lines_append hfeed hread]

end Storyline.Lint
