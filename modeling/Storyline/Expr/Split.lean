import Storyline.Text.Blank

/-!
# Cutting an expression outside its quotes

Conditions and assignments are cut at separators that stand outside quotes.  Either quote opens a
quoted stretch, which the same quote closes; a quote that is never closed keeps the rest whole.

## Main definitions

* `isQuote`, `afterChar`: the quotes, and the quote that is open after a character
* `splitOutside`: the parts of a text between separators outside quotes

## Main results

* `splitOutside_ne_nil`: there is always a part
* `length_lt_of_mem_splitOutside`: with two parts or more, every part is shorter than the text
-/

namespace Storyline.Expr

open Text

/-- The characters that open and close quoted stretches. -/
def isQuote (c : Char) : Bool :=
  c == '\'' || c == '"'

/-- The quote that is open after a character, given the one open before it. -/
def afterChar : Option Char → Char → Option Char
  | some q, c => if c = q then none else some q
  | none, c => if isQuote c then some c else none

/-- The quote that is open after a text, given the one open before it. -/
def afterText (quote : Option Char) (s : List Char) : Option Char :=
  s.foldl afterChar quote

/-- Puts a character in front of the first part. -/
def consHead (c : Char) : List (List Char) → List (List Char)
  | [] => [[c]]
  | p :: ps => (c :: p) :: ps

/-- The separator at the start of a text: none if a quote is open or opens there, else the first in
the list that the text begins with. -/
def separatorAt (seps : List (List Char)) (quote : Option Char) (s : List Char) :
    Option (List Char) :=
  if quote.isSome || s.head?.any isQuote then none else seps.find? (·.isPrefixOf s)

/-- The parts of a text between separators outside quotes. -/
def splitOutside (seps : List (List Char)) (quote : Option Char) : List Char → List (List Char)
  | [] => [[]]
  | c :: r =>
    match separatorAt seps quote (c :: r) with
    | some sep => [] :: splitOutside seps none (r.drop (sep.length - 1))
    | none => consHead c (splitOutside seps (afterChar quote c) r)
termination_by s => s.length
decreasing_by
  all_goals simp only [List.length_cons, List.length_drop]
  all_goals omega

theorem consHead_ne_nil (c : Char) (ps : List (List Char)) : consHead c ps ≠ [] := by
  cases ps <;> simp [consHead]

@[simp] theorem length_consHead {c : Char} {ps : List (List Char)} (h : ps ≠ []) :
    (consHead c ps).length = ps.length := by
  cases ps with
  | nil => exact absurd rfl h
  | cons p ps => simp [consHead]

/-- There is always a part. -/
theorem splitOutside_ne_nil (seps : List (List Char)) (quote : Option Char) (s : List Char) :
    splitOutside seps quote s ≠ [] := by
  cases s with
  | nil => simp [splitOutside]
  | cons c r =>
    rw [splitOutside]
    split
    · simp
    · exact consHead_ne_nil _ _

theorem length_le_of_mem_splitOutside (seps : List (List Char)) (quote : Option Char)
    (s : List Char) : ∀ p ∈ splitOutside seps quote s,
      p.length ≤ s.length ∧ (1 < (splitOutside seps quote s).length → p.length < s.length) := by
  have key : ∀ (c : Char) (ps : List (List Char)) (n : Nat), ps ≠ [] →
      (∀ p ∈ ps, p.length ≤ n ∧ (1 < ps.length → p.length < n)) →
      ∀ p ∈ consHead c ps,
        p.length ≤ n + 1 ∧ (1 < (consHead c ps).length → p.length < n + 1) := by
    intro c ps n hne h p hp
    rw [length_consHead hne]
    cases ps with
    | nil => exact absurd rfl hne
    | cons a as =>
      simp only [consHead, List.mem_cons] at hp
      rcases hp with rfl | hp
      · obtain ⟨h1, h2⟩ := h a List.mem_cons_self
        refine ⟨by simpa using h1, fun hl => by simpa using h2 hl⟩
      · obtain ⟨h1, h2⟩ := h p (List.mem_cons_of_mem _ hp)
        exact ⟨by omega, fun hl => by omega⟩
  fun_induction splitOutside seps quote s with
  | case1 => simp
  | case2 quote c r sep hsep ih =>
    intro p hp
    rw [List.mem_cons] at hp
    rcases hp with rfl | hp
    · simp
    · obtain ⟨h1, _⟩ := ih p hp
      rw [List.length_drop] at h1
      simp only [List.length_cons]
      exact ⟨by omega, fun _ => by omega⟩
  | case3 quote c r hsep ih => exact key _ _ _ (splitOutside_ne_nil _ _ _) ih

/-- With two parts or more, every part is shorter than the text. -/
theorem length_lt_of_mem_splitOutside {seps : List (List Char)} {quote : Option Char}
    {s p : List Char} (hp : p ∈ splitOutside seps quote s)
    (h : 1 < (splitOutside seps quote s).length) : p.length < s.length :=
  (length_le_of_mem_splitOutside seps quote s p hp).2 h

/-- The parts of a text between separators outside quotes, with no quote open at its start. -/
def split (seps : List (List Char)) (s : List Char) : List (List Char) :=
  splitOutside seps none s

end Storyline.Expr
