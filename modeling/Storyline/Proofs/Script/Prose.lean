import Storyline.Proofs.Script.Placement
import Storyline.Script.Written

/-!
# Written texts and headers

The text of a node and the header of a scene are written as they are. Lines of prose of which the
first and the last are not idle are one block with all of their text, and a header is read as the
name that it is written with.

## Main definitions

* `IsName`: a name that a scene may have

## Main results

* `proseBlock?_eq`: the block of lines without idle ends
* `header?_name`: the header of a scene is read as the name of the scene
-/

namespace Storyline.Script

open Text

/-! ## Written text -/

theorem eq_nil_of_idle_front {front ls : List (List Char)}
    (h : ∀ l ∈ (front ++ ls).head?, isIdle l = false) (hidle : ∀ l ∈ front, isIdle l = true) :
    front = [] := by
  cases front with
  | nil => rfl
  | cons l front =>
    have hl := hidle l List.mem_cons_self
    rw [h l rfl] at hl
    cases hl

theorem eq_nil_of_idle_back {ls back : List (List Char)}
    (h : ∀ l ∈ (ls ++ back).getLast?, isIdle l = false) (hidle : ∀ l ∈ back, isIdle l = true) :
    back = [] := by
  rcases List.eq_nil_or_concat back with rfl | ⟨back, l, hb⟩
  · rfl
  · rw [List.concat_eq_append] at hb
    subst hb
    have hl := hidle l (by simp)
    rw [h l (by simp)] at hl
    cases hl

/-- The block of lines of which the first and the last are not idle is their whole text. -/
theorem proseBlock?_eq {n : Nat} {ls : List (List Char)} (hne : ls ≠ [])
    (hhead : ∀ l ∈ ls.head?, isIdle l = false) (hlast : ∀ l ∈ ls.getLast?, isIdle l = false) :
    proseBlock? (numbered n ls) = some ⟨n, .text (String.ofList (trim (unlines ls)))⟩ := by
  cases hblock : proseBlock? (numbered n ls) with
  | none =>
    obtain ⟨l, rest, rfl⟩ := List.exists_cons_of_ne_nil hne
    have hidle := of_numbered (proseBlock?_eq_none_iff.1 hblock) l List.mem_cons_self
    rw [hhead l rfl] at hidle
    cases hidle
  | some b =>
    obtain ⟨front, text, back, rfl, hfront, hback, -, -, -, hline, hform⟩ :=
      proseBlock?_numbered hblock
    obtain rfl := eq_nil_of_idle_front hhead hfront
    rw [List.nil_append] at hlast
    obtain rfl := eq_nil_of_idle_back hlast hback
    obtain ⟨line, form⟩ := b
    dsimp only at hline hform
    rw [hline, hform, List.nil_append, List.append_nil]
    rfl

/-! ## Names -/

/-- Whether a text may be the name of a scene. -/
def IsName (id : String) : Prop :=
  id.toList ≠ [] ∧ ∀ c ∈ id.toList, isNameChar c = true

theorem headerLine_eq (id : String) : s!"# {id}".toList = '#' :: ' ' :: id.toList := by
  rw [String.toList_append]
  rfl

theorem header?_name {id : String} (h : IsName id) : header? s!"# {id}".toList = some id := by
  have hafter : after? ['#', ' '] ('#' :: ' ' :: id.toList) = some id.toList := by
    simp [after?]
  have htake : id.toList.takeWhile isNameChar = id.toList := by
    rw [List.takeWhile_eq_self_iff]
    exact h.2
  have hdrop : id.toList.dropWhile isNameChar = [] := by
    rw [List.dropWhile_eq_nil_iff]
    exact h.2
  rw [headerLine_eq, header?, hafter, Option.bind_some]
  dsimp only
  rw [htake, hdrop, if_pos (by simpa using h.1), String.ofList_toList]

theorem unbroken_headerLine {id : String} (h : IsName id) : '\n' ∉ s!"# {id}".toList := by
  rw [headerLine_eq]
  intro hmem
  have hmem : '\n' ∈ id.toList := by simpa using hmem
  exact absurd (h.2 _ hmem) (by decide)

end Storyline.Script
