import Storyline.Proofs.Value.Text
import Storyline.Script.Media

/-!
# The media of a fence

What every medium that a fence describes has: a prompt that is filled, and no empty lists.

## Main definitions

* `Generated.Normal`: a filled prompt, filled names, no empty list of names and no empty notes

## Main results

* `gives_readMedia`: the media of a fence are normal
-/

namespace Storyline

open Text

/-- Whether generated media have a filled prompt, and names and notes only if there are any. -/
def Generated.Normal : Generated → Prop
  | .image prompt _ characters _ =>
    Filled prompt.toList ∧ ∀ names ∈ characters, names ≠ [] ∧ ∀ n ∈ names, Filled n.toList
  | .audio _ prompt _ => Filled prompt.toList
  | .video prompt _ => Filled prompt.toList
  | .minigame prompt notes _ => Filled prompt.toList ∧ ∀ ns ∈ notes, ns.isEmpty = false

namespace Script

open Except

theorem text_of_textOf {v : Value} {t : String} (h : textOf v = .ok t) : v.text = .ok t := by
  rw [textOf, writtenOut] at h
  split at h
  · cases h
  · cases htext : v.text with
    | error f =>
      rw [htext] at h
      cases h
    | ok s =>
      rw [htext] at h
      cases h
      rfl

theorem gives_shownText? (v : Value) :
    (shownText? v).Gives fun shown => ∀ t ∈ shown, Filled (trimmed t).toList := by
  refine gives_bind fun found => gives_ok fun t ht => ?_
  have hblank : ¬Blank t.toList := by
    intro hblank
    have hshown := (Option.filter_eq_some_iff.1 ht).2
    simp [allBlank, List.all_eq_true.2 hblank] at hshown
  rw [trimmed, String.toList_ofList]
  exact filled_trim hblank

theorem gives_variableNotes (v : Value) :
    (variableNotes v).Gives fun found => ∀ ns ∈ found, ns.isEmpty = false := by
  refine gives_bind fun entries => gives_ok fun ns hns => ?_
  simpa using (Option.filter_eq_some_iff.1 hns).2

/-- Trimmed names without the empty ones are filled. -/
theorem gives_names {names : List String} (h : ∀ n ∈ names, trimmed n = n) :
    (pure (if (names.filter fun n => !n.isEmpty).isEmpty then none
      else some (names.filter fun n => !n.isEmpty)) : Except Failure (Option (List String))).Gives
        fun found => ∀ ns ∈ found, ns ≠ [] ∧ ∀ n ∈ ns, Filled n.toList := by
  refine gives_ok fun ns hns => ?_
  split at hns
  · cases hns
  · next hne =>
    cases hns
    refine ⟨by simpa using hne, fun n hn => ?_⟩
    obtain ⟨hmem, hempty⟩ := List.mem_filter.1 hn
    have htrim := congrArg String.toList (h n hmem)
    rw [trimmed, String.toList_ofList] at htrim
    exact ⟨by simpa using hempty, htrim⟩

theorem gives_nameList (v : Value) :
    (nameList v).Gives fun found => ∀ ns ∈ found, ns ≠ [] ∧ ∀ n ∈ ns, Filled n.toList := by
  unfold nameList
  split
  · exact gives_names (List.forall_mem_nil _)
  · refine gives_names fun n hn => ?_
    obtain ⟨l, -, rfl⟩ := List.mem_map.1 hn
    rw [trimmed, String.toList_ofList, trim_trim]
  · refine Gives.bind (P := fun names => ∀ n ∈ names, trimmed n = n) ?_ fun names => gives_names
    exact gives_mapM fun i _ => gives_bind fun t => gives_ok (trimmed_trimmed t)
  · next hstr _ =>
    refine Gives.bind (P := fun t => trimmed t = t) ?_ fun t ht => gives_names (by simpa using ht)
    intro t ht
    rw [trimmed, (filled_text hstr (text_of_textOf ht)).2, String.ofList_toList]

theorem gives_readMedia (fence : String) (place : Place) (data : List (Value × Value)) :
    (readMedia fence place data).Gives Generated.Normal := by
  refine Gives.bind (gives_shownText? _) fun shown hshown => ?_
  split
  · next prompt hprompt =>
    have hfilled : Filled prompt.toList := by
      obtain ⟨t, ht, rfl⟩ := Option.map_eq_some_iff.1 hprompt
      exact hshown t ht
    refine gives_bind fun url => ?_
    split
    · refine gives_bind fun character => Gives.bind (gives_nameList _) fun names hnames => ?_
      exact gives_ok ⟨hfilled, hnames⟩
    · exact gives_bind fun kind => gives_ok hfilled
    · exact gives_ok hfilled
    · refine Gives.bind (gives_variableNotes _) fun notes hnotes => gives_ok ⟨hfilled, hnotes⟩
    · exact gives_error _
  · exact gives_error _

end Script

end Storyline
