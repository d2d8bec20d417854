/-!
# Blank characters

Which characters count as blank, and trimming of blank ends.  Story text may come from any editor,
so every Unicode space is blank, not only those of ASCII, and so are the four information
separators U+001C to U+001F.

## Main definitions

* `isBlank`: the blank characters
* `trimLeft`, `trimRight`, `trim`: a text without its blank ends

## Main results

* `trim_eq_nil_iff`: exactly the texts of blanks trim to nothing
-/

namespace Storyline.Text

/-- Blank in ASCII: space, tab, line feed, vertical tab, form feed and carriage return. -/
def isAsciiBlank (c : Char) : Bool :=
  c == ' ' || (9 ≤ c.toNat && c.toNat ≤ 13)

/-- The blank characters: Unicode spaces, line and paragraph separators, the control characters
that break or separate text. -/
def isBlank (c : Char) : Bool :=
  let n := c.toNat
  isAsciiBlank c || (0x1C ≤ n && n ≤ 0x1F) || n == 0x85 || n == 0xA0 || n == 0x1680 ||
    (0x2000 ≤ n && n ≤ 0x200A) || n == 0x2028 || n == 0x2029 || n == 0x202F || n == 0x205F ||
    n == 0x3000

/-- The characters of identifiers: ASCII letters, digits and the underscore. -/
def isWord (c : Char) : Bool :=
  c.isAlphanum || c == '_'

/-- The characters of scene names: those of identifiers, and the hyphen. -/
def isNameChar (c : Char) : Bool :=
  isWord c || c == '-'

/-- A text without the blanks in front. -/
def trimLeft (s : List Char) : List Char :=
  s.dropWhile isBlank

/-- A text without the blanks at its end. -/
def trimRight (s : List Char) : List Char :=
  (s.reverse.dropWhile isBlank).reverse

/-- A text without the blanks at both ends. -/
def trim (s : List Char) : List Char :=
  trimRight (trimLeft s)

/-- A string without the blanks at both ends. -/
def trimmed (s : String) : String :=
  String.ofList (trim s.toList)

/-- Whether a string holds blanks only. -/
def allBlank (s : String) : Bool :=
  s.toList.all isBlank

theorem trimLeft_suffix (s : List Char) : trimLeft s <:+ s :=
  List.dropWhile_suffix isBlank

theorem trimLeft_eq_nil_iff {s : List Char} : trimLeft s = [] ↔ ∀ c ∈ s, isBlank c = true := by
  induction s with
  | nil => simp [trimLeft]
  | cons c r ih => cases h : isBlank c <;> simp_all [trimLeft]

theorem trimRight_eq_nil_iff {s : List Char} : trimRight s = [] ↔ ∀ c ∈ s, isBlank c = true := by
  rw [trimRight, List.reverse_eq_nil_iff]
  exact trimLeft_eq_nil_iff.trans ⟨fun h c hc => h c (List.mem_reverse.mpr hc),
    fun h c hc => h c (List.mem_reverse.mp hc)⟩

/-- A text trimmed in front starts with no blank. -/
theorem isBlank_of_trimLeft_eq_cons {s r : List Char} {c : Char} (h : trimLeft s = c :: r) :
    isBlank c = false := by
  induction s with
  | nil => simp [trimLeft] at h
  | cons d t ih => cases hd : isBlank d <;> simp_all [trimLeft]

/-- Exactly the texts of blanks trim to nothing. -/
theorem trim_eq_nil_iff {s : List Char} : trim s = [] ↔ ∀ c ∈ s, isBlank c = true := by
  rw [trim, trimRight_eq_nil_iff, ← trimLeft_eq_nil_iff (s := s)]
  cases hs : trimLeft s with
  | nil => simp
  | cons c r => simp [isBlank_of_trimLeft_eq_cons hs]

end Storyline.Text
