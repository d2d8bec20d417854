import Storyline.Expr.Condition

/-!
# Templates

Scene text with values filled in.  Conditional blocks come first:
`{{ if c }}yes{{ else }}no{{ /if }}` keeps one branch; they do not nest.  Then `{{name}}` becomes
the value of a variable; an unknown name stays as written.  What was filled in is not read again.

## Main definitions

* `Block`, `block?`: a conditional block at the start of a text
* `fillBlocks`, `fillNames`: the two passes
* `interpolate`: a text with its values

## Main results

* `shorterEnd_of_block?`, `shorterEnd_of_name?`: what stands after a block and after a name
-/

namespace Storyline.Expr

open Text

/-- Whether two letters are one but for case.  The dotless and the dotted letter i count as i, and
the long s as s. -/
def sameLetter (pattern c : Char) : Bool :=
  c.toLower == pattern || (pattern == 'i' && (c == 'ı' || c == 'İ')) || (pattern == 's' && c == 'ſ')

/-- The rest of a text after a word, in letters of either case. -/
def afterWord? : List Char → List Char → Option (List Char)
  | [], s => some s
  | p :: ps, c :: r => if sameLetter p c then afterWord? ps r else none
  | _ :: _, [] => none

/-- The rest of a text after two closing braces. -/
def afterClose? : List Char → Option (List Char)
  | '}' :: '}' :: r => some r
  | _ => none

/-- The rest of a text after a tag that holds one word, with blanks around it. -/
def afterTag? (word : String) : List Char → Option (List Char)
  | '{' :: '{' :: r => do afterClose? (trimLeft (← afterWord? word.toList (trimLeft r)))
  | _ => none

/-- The text before the tag that ends a block, and the text after it. -/
def untilEnd? : List Char → Option (List Char × List Char)
  | [] => none
  | c :: r =>
    match afterTag? "/if" (c :: r) with
    | some t => some ([], t)
    | none => (untilEnd? r).map fun p => (c :: p.1, p.2)

/-- The branches of a block and the text after it. -/
structure Branches where
  yes : List Char
  no : List Char
  rest : List Char
  deriving Repr

/-- The branches that a text begins with: the first tag `else` with an end after it, or the first
end, closes the first branch. -/
def branches? : List Char → Option Branches
  | [] => none
  | c :: r =>
    match (afterTag? "else" (c :: r)).bind untilEnd? with
    | some (no, rest) => some ⟨[], no, rest⟩
    | none =>
      match afterTag? "/if" (c :: r) with
      | some t => some ⟨[], [], t⟩
      | none => (branches? r).map fun b => { b with yes := c :: b.yes }

/-- A conditional block and the text after it. -/
structure Block where
  condition : List Char
  yes : List Char
  no : List Char
  rest : List Char
  deriving Repr

/-- The shortest condition on one line, given in reverse with what was read already, after which the
tag closes and branches follow. -/
def conditionAndBranches? (before : List Char) : List Char → Option Block
  | [] => none
  | c :: r =>
    -- A condition stays on its line.
    if c = '\n' then none
    else
      match ((afterClose? (trimLeft r)).bind branches?) with
      | some b => some ⟨(c :: before).reverse, b.yes, b.no, b.rest⟩
      | none => conditionAndBranches? (c :: before) r

/-- The block whose condition starts after some of the blanks of a text, at least one and as many
as possible. -/
def afterBlanks? : List Char → Option Block
  | [] => none
  | c :: r =>
    if isBlank c then
      -- As many blanks as possible come before the condition; fewer only if no block begins then.
      match afterBlanks? r with
      | some b => some b
      | none => conditionAndBranches? [] r
    else none

/-- The conditional block that a text begins with. -/
def block? : List Char → Option Block
  | '{' :: '{' :: r => do afterBlanks? (← afterWord? "if".toList (trimLeft r))
  | _ => none

/-- Whether a text is the end of another, and shorter. -/
structure ShorterEnd (t s : List Char) : Prop where
  suffix : t <:+ s
  length_lt : t.length < s.length

namespace ShorterEnd

variable {r s t : List Char}

theorem of_cons (h : t <:+ r) (c : Char) : ShorterEnd t (c :: r) :=
  ⟨h.trans (List.suffix_cons c r), Nat.lt_succ_of_le h.length_le⟩

theorem of_suffix (h : t <:+ r) (hr : ShorterEnd r s) : ShorterEnd t s :=
  ⟨h.trans hr.suffix, Nat.lt_of_le_of_lt h.length_le hr.length_lt⟩

end ShorterEnd

section

variable {r s t : List Char}

theorem suffix_of_afterWord? {word : List Char} (h : afterWord? word s = some t) : t <:+ s := by
  fun_induction afterWord? word s with
  | case1 s =>
    cases h
    exact List.suffix_rfl
  | case2 p ps c r _ ih => exact (ih h).trans (List.suffix_cons c r)
  | case3 => cases h
  | case4 => cases h

theorem shorterEnd_of_afterClose? (h : afterClose? s = some t) : ShorterEnd t s := by
  unfold afterClose? at h
  split at h
  · cases h
    exact .of_cons (List.suffix_cons '}' t) '}'
  · cases h

/-- What stands after opening braces and a word. -/
theorem shorterEnd_of_opened {word : List Char} (h : afterWord? word (trimLeft r) = some t) :
    ShorterEnd t ('{' :: '{' :: r) := by
  have hr : trimLeft r <:+ '{' :: r := (trimLeft_suffix r).trans (List.suffix_cons '{' r)
  exact .of_cons ((suffix_of_afterWord? h).trans hr) '{'

theorem shorterEnd_of_afterTag? {word : String} (h : afterTag? word s = some t) :
    ShorterEnd t s := by
  unfold afterTag? at h
  split at h
  · next r =>
    obtain ⟨u, hu, ht⟩ := Option.bind_eq_some_iff.1 h
    have htu : t <:+ u := (shorterEnd_of_afterClose? ht).suffix.trans (trimLeft_suffix u)
    exact (shorterEnd_of_opened hu).of_suffix htu
  · cases h

theorem shorterEnd_of_untilEnd? {p : List Char × List Char} (h : untilEnd? s = some p) :
    ShorterEnd p.2 s := by
  induction s generalizing p with
  | nil => cases h
  | cons c r ih =>
    rw [untilEnd?] at h
    split at h
    · next ht =>
      cases h
      exact shorterEnd_of_afterTag? ht
    · obtain ⟨q, hq, rfl⟩ := Option.map_eq_some_iff.1 h
      exact .of_cons (ih hq).suffix c

theorem shorterEnd_of_branches? {b : Branches} (h : branches? s = some b) :
    ShorterEnd b.rest s := by
  induction s generalizing b with
  | nil => cases h
  | cons c r ih =>
    rw [branches?] at h
    split at h
    · next hb =>
      cases h
      obtain ⟨u, hu, ht⟩ := Option.bind_eq_some_iff.1 hb
      exact (shorterEnd_of_afterTag? hu).of_suffix (shorterEnd_of_untilEnd? ht).suffix
    · split at h
      · next ht =>
        cases h
        exact shorterEnd_of_afterTag? ht
      · obtain ⟨q, hq, rfl⟩ := Option.map_eq_some_iff.1 h
        exact .of_cons (ih hq).suffix c

theorem shorterEnd_of_conditionAndBranches? {before : List Char} {b : Block}
    (h : conditionAndBranches? before s = some b) : ShorterEnd b.rest s := by
  induction s generalizing before with
  | nil => cases h
  | cons c r ih =>
    rw [conditionAndBranches?] at h
    split at h
    · cases h
    · split at h
      · next q hq =>
        cases h
        obtain ⟨u, hu, hb⟩ := Option.bind_eq_some_iff.1 hq
        have hur : u <:+ r := (shorterEnd_of_afterClose? hu).suffix.trans (trimLeft_suffix r)
        exact .of_cons ((shorterEnd_of_branches? hb).suffix.trans hur) c
      · exact .of_cons (ih h).suffix c

theorem shorterEnd_of_afterBlanks? {b : Block} (h : afterBlanks? s = some b) :
    ShorterEnd b.rest s := by
  induction s generalizing b with
  | nil => cases h
  | cons c r ih =>
    rw [afterBlanks?] at h
    split at h
    · split at h
      · next q hq =>
        cases h
        exact .of_cons (ih hq).suffix c
      · exact .of_cons (shorterEnd_of_conditionAndBranches? h).suffix c
    · cases h

/-- The text after a block is the end of the text that begins with it. -/
theorem shorterEnd_of_block? {b : Block} (h : block? s = some b) : ShorterEnd b.rest s := by
  unfold block? at h
  split at h
  · next r =>
    obtain ⟨u, hu, hb⟩ := Option.bind_eq_some_iff.1 h
    exact (shorterEnd_of_opened hu).of_suffix (shorterEnd_of_afterBlanks? hb).suffix
  · cases h

end

/-- The text with every conditional block replaced by the branch that its condition chooses. -/
def fillBlocks (state : State) (s : List Char) : Logged NumberFault (List Char) :=
  match s with
  | [] => pure []
  | c :: r =>
    match _h : block? (c :: r) with
    | some b => do
      let holds ← evaluateChars b.condition state
      return (if holds then b.yes else b.no) ++ (← fillBlocks state b.rest)
    | none => do return c :: (← fillBlocks state r)
termination_by s.length
decreasing_by
  · exact (shorterEnd_of_block? _h).length_lt
  · simp

/-- The name in double braces that a text begins with, and the text after it. -/
def name? : List Char → Option (List Char × List Char)
  | '{' :: '{' :: r =>
    match r.takeWhile isWord with
    | [] => none
    | n => (afterClose? (r.dropWhile isWord)).map fun t => (n, t)
  | _ => none

theorem shorterEnd_of_name? {s : List Char} {p : List Char × List Char} (h : name? s = some p) :
    ShorterEnd p.2 s := by
  unfold name? at h
  split at h
  · next r =>
    split at h
    · cases h
    · obtain ⟨t, ht, rfl⟩ := Option.map_eq_some_iff.1 h
      have hword : r.dropWhile isWord <:+ '{' :: r :=
        (List.dropWhile_suffix isWord).trans (List.suffix_cons '{' r)
      exact .of_cons ((shorterEnd_of_afterClose? ht).suffix.trans hword) '{'
  · cases h

/-- The text with the name of every variable in double braces replaced by its value. -/
def fillNames (state : State) (s : List Char) : Except NumberFault (List Char) :=
  match s with
  | [] => pure []
  | c :: r =>
    match _h : name? (c :: r) with
    | some (name, rest) => do
      let value ← match state.get? (String.ofList name) with
        | some v => do pure (← Operand.display (some v)).toList
        | none => pure ('{' :: '{' :: name ++ ['}', '}'])
      return value ++ (← fillNames state rest)
    | none => do return c :: (← fillNames state r)
termination_by s.length
decreasing_by
  · exact (shorterEnd_of_name? _h).length_lt
  · simp

/-- A text with its conditional blocks decided and its variables filled in. -/
def interpolate (text : String) (state : State) : Logged NumberFault String := do
  let s ← fillBlocks state text.toList
  return String.ofList (← Logged.lift (fillNames state s))

end Storyline.Expr
