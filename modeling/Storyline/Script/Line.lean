import Storyline.Text.Lines
import Storyline.Mapping

/-!
# Lines of a script

The forms that a single line of a script may have: the header of a scene, a choice, a static image,
sound or video, and narration for the text below it.  Every other line is prose.

## Main definitions

* `header?`: the scene whose header a line is
* `readClauses`: the clauses after a choice
* `Form`, `lineForm?`: what a line stands for

## Main results

* `eq_append_of_after?`: the text is its mark and what stands after it
* `eq_append_of_enclosed?`: nothing of a clause is lost
-/

namespace Storyline.Script

open Text

/-! ## Marks -/

/-- The line that separates front matter from scenes, and scenes from one another. -/
def rule : List Char :=
  "---".toList

/-- The line that closes a fence; every opening line begins with it. -/
def fenceMark : List Char :=
  "```".toList

/-- The text after a mark in front. -/
def after? (mark s : List Char) : Option (List Char) :=
  if mark.isPrefixOf s then some (s.drop mark.length) else none

/-- Whether a line is a rule, blanks around it aside. -/
def isRule (line : List Char) : Bool :=
  trim line == rule

/-- Whether a line closes a fence. -/
def closesFence (line : List Char) : Bool :=
  trim line == fenceMark

/-- Whether a line is blank or a rule. -/
def isIdle (line : List Char) : Bool :=
  (trim line).isEmpty || isRule line

/-- The scene whose header a line is. -/
def header? (line : List Char) : Option String :=
  (after? ['#', ' '] line).bind fun r =>
    let name := r.takeWhile isNameChar
    if !name.isEmpty && (r.dropWhile isNameChar).all isAsciiBlank then some (String.ofList name)
    else none

/-- What stands after the mark on a line that opens a fence. -/
def fenceInfo? (line : List Char) : Option String :=
  (after? fenceMark (trim line)).map fun r => String.ofList (trim r)

/-! ## Clauses of a choice -/

/-- The names of the clauses: the condition, the assignment and the sound of a choice. -/
def clauseNames : List String :=
  ["if", "set", "audio"]

/-- The name of the clause that a text begins, and the text after its colon. -/
def clauseStart? (s : List Char) : Option (String × List Char) :=
  clauseNames.findSome? fun name =>
    (after? ('(' :: name.toList ++ [':']) s).map fun r => (name, r)

/-- Whether a character opens a quotation. -/
def opensQuote (c : Char) : Bool :=
  c == '\'' || c == '"'

/-- How deep a place is in parentheses, and the quote that is open at it. -/
structure Nesting where
  depth : Nat
  quote : Option Char := none
  deriving Repr, DecidableEq

/-- The nesting after one more character.  Between quotes nothing counts but the same quote. -/
def Nesting.step (n : Nesting) (c : Char) : Nesting :=
  match n.quote with
  | some q => if c = q then { n with quote := none } else n
  | none =>
    if opensQuote c then { n with quote := some c }
    else if c = '(' then { n with depth := n.depth + 1 }
    else if c = ')' then { n with depth := n.depth - 1 }
    else n

/-- The text up to the parenthesis that closes all open ones, and the text after it. -/
def enclosed? (n : Nesting) : List Char → Option (List Char × List Char)
  | [] => none
  | c :: r =>
    if (n.step c).depth = 0 then some ([], r)
    else (enclosed? (n.step c) r).map fun p => (c :: p.1, p.2)

theorem eq_append_of_after? {mark s r : List Char} (h : after? mark s = some r) :
    s = mark ++ r := by
  unfold after? at h
  split at h
  · next hp =>
    cases h
    exact (List.prefix_iff_eq_append.1 (List.isPrefixOf_iff_prefix.1 hp)).symm
  · simp at h

/-- What an enclosing text holds is the text without its end. -/
theorem eq_append_of_enclosed? {n : Nesting} {s : List Char} {p : List Char × List Char}
    (h : enclosed? n s = some p) : ∃ c, s = p.1 ++ c :: p.2 := by
  induction s generalizing n p with
  | nil => simp [enclosed?] at h
  | cons c r ih =>
    unfold enclosed? at h
    split at h
    · cases h
      exact ⟨c, rfl⟩
    · obtain ⟨x, hx, rfl⟩ := Option.map_eq_some_iff.1 h
      obtain ⟨d, hd⟩ := ih hx
      exact ⟨d, by rw [hd]; rfl⟩

theorem length_lt_of_clauseStart? {s : List Char} {p : String × List Char}
    (h : clauseStart? s = some p) : p.2.length < s.length := by
  obtain ⟨name, _, hname⟩ := List.exists_of_findSome?_eq_some h
  obtain ⟨r, hr, rfl⟩ := Option.map_eq_some_iff.1 hname
  have := eq_append_of_after? hr
  simp only [this, List.length_append, List.length_cons]
  omega

/-- The clauses in a text, in order, and the text around them.  From a clause on that does not end,
all is text. -/
def clauseList (s : List Char) : List (String × String) × List Char :=
  match s with
  | [] => ([], [])
  | c :: r =>
    match _hs : clauseStart? (c :: r) with
    | none =>
      let p := clauseList r
      (p.1, c :: p.2)
    | some (name, t) =>
      match _ht : enclosed? ⟨1, none⟩ t with
      -- A clause that does not end leaves everything from here on as text.
      | none => ([], c :: r)
      | some (content, rest) =>
        let p := clauseList rest
        ((name, String.ofList (trim content)) :: p.1, p.2)
termination_by s.length
decreasing_by
  · simp
  · have h₁ := length_lt_of_clauseStart? _hs
    obtain ⟨d, h₂⟩ := eq_append_of_enclosed? _ht
    have h₃ := congrArg List.length h₂
    simp only [List.length_append, List.length_cons] at h₁ h₃ ⊢
    omega

/-- The clauses in a text by their names, and the text around them.  Of two clauses with one name
the last counts. -/
def readClauses (s : List Char) : Mapping String × String :=
  let p := clauseList s
  (Mapping.ofList p.1, String.ofList (trim p.2))

/-! ## Forms -/

/-- What a line, or a group of lines, of a scene stands for. -/
inductive Form where
  /-- Prose, on one or more lines. -/
  | text (content : String)
  /-- A fence around data, from which media are generated. -/
  | fence (name : String) (content : String)
  /-- A choice, with its clauses by name. -/
  | choice (text : String) (target : String) (clauses : Mapping String)
  | image (url : String) (alt : String)
  | audio (url : String)
  | video (url : String)
  /-- The sound of the text that follows. -/
  | narration (url : String)
  /-- A form that scenes do not know. -/
  | unknown (kind : String)
  deriving Repr, DecidableEq

/-- The target and what follows it, after the text of a choice. -/
def arrow? (s : List Char) : Option (String × List Char) :=
  (after? ['-', '>'] (s.dropWhile isAsciiBlank)).bind fun r =>
    let t := r.dropWhile isAsciiBlank
    match t.takeWhile isNameChar with
    | [] => none
    | name => some (String.ofList name, t.dropWhile isNameChar)

/-- The text of a choice after its opening bracket, its target, and what follows.  The text ends at
the first closing bracket after which there is an arrow. -/
def bracketed? : List Char → Option (List Char × String × List Char)
  | [] => none
  | c :: r =>
    match if c = ']' then arrow? r else none with
    | some p => some ([], p)
    -- A closing bracket without an arrow belongs to the text of the choice.
    | none => (bracketed? r).map fun p => (c :: p.1, p.2)

/-- A choice, and the text on its line that is no clause. -/
def choice? (line : List Char) : Option (Form × String) :=
  match line with
  | '*' :: c :: r =>
    if isAsciiBlank c then
      ((after? ['['] (r.dropWhile isAsciiBlank)).bind bracketed?).map fun p =>
        let (clauses, leftover) := readClauses p.2.2
        (.choice (String.ofList p.1) p.2.1 clauses, leftover)
    else none
  | _ => none

/-- The address between parentheses, if a text is nothing else. -/
def address? (s : List Char) : Option String :=
  (after? ['('] s).bind fun r =>
    let inside (c : Char) : Bool := c != ')' && !isBlank c
    match r.takeWhile inside with
    | [] => none
    | url => if r.dropWhile inside = [')'] then some (String.ofList url) else none

/-- A static image. -/
def image? (line : List Char) : Option Form :=
  (after? ['!', '['] line).bind fun r =>
    let alt := r.takeWhile (· != ']')
    ((after? [']'] (r.drop alt.length)).bind address?).map fun url =>
      .image url (String.ofList alt)

/-- A static sound. -/
def audio? (line : List Char) : Option Form :=
  ((after? "[audio]".toList line).bind address?).map .audio

/-- A static video. -/
def video? (line : List Char) : Option Form :=
  ((after? "[video]".toList line).bind address?).map .video

/-- The text before a mark at the end. -/
def before? (mark s : List Char) : Option (List Char) :=
  (after? mark.reverse s.reverse).map List.reverse

/-- Narration: a comment that names a sound. -/
def narration? (line : List Char) : Option Form :=
  (after? "<!--".toList line).bind fun r =>
    (after? "audio:".toList (trimLeft r)).bind fun t =>
      (before? "-->".toList t).bind fun u =>
        let url := trim u
        if url.isEmpty || url.any isBlank then none else some (.narration (String.ofList url))

/-- What a line without blanks around it stands for, unless it is prose, and the text on it that is
left out. -/
def lineForm? (line : List Char) : Option (Form × String) :=
  (choice? line).or
    ((((image? line).or (audio? line)).or ((video? line).or (narration? line))).map
      fun f => (f, ""))

end Storyline.Script
