import Storyline.Proofs.Lint.Parts
import Storyline.Proofs.Script.Independence

/-!
# The headers of a script, as they are read and as they are checked

A check of a script looks for scenes with one name. It goes over all lines at once, and takes every
line with the mark of a fence for the start or the end of one. So it finds the scenes that are read
if no line of the front matter is a header or bears such a mark, and marks in the scenes come in
pairs; in front of the scenes there must be none, for there no fence is read.

## Main definitions

* `repeated`: the headers whose name was given before
* `duplicates`: the scenes that issues report as doubled
* `Paired`: a script in which every mark of a fence starts or ends one

## Main results

* `duplicates_repeatedHeaders`: one issue is given for each repeated header
* `exists_checkScript_iff`: when a script can be checked
* `headers_eq_scene_headers`: in scenes with paired marks the headers that are checked are those
  that are read
* `checkScript_duplicates`: the scenes that are reported as doubled
-/

namespace Storyline.Lint

open Text Script

/-! ## Repeated headers -/

/-- The headers whose name was given before. -/
def repeated (hs : List (String × Nat)) : List (String × Nat) :=
  (hs.zipIdx.filter fun p => ((hs.take p.2).map Prod.fst).contains p.1.1).map Prod.fst

/-- A header as an issue gives it: the name of the scene and the line. -/
def reported (h : String × Nat) : Option String × Option Nat :=
  (some h.1, some h.2)

/-- Whether a finding is that a scene is doubled. -/
def Finding.isDuplicate : Finding → Bool
  | .duplicateScene _ _ => true
  | _ => false

/-- The scenes that issues report as doubled, with the lines of their headers. -/
def duplicates (issues : List Issue) : List (Option String × Option Nat) :=
  (issues.filter fun i => i.finding.isDuplicate).map fun i => (i.scene, i.line)

theorem repeated_concat (hs : List (String × Nat)) (h : String × Nat) :
    repeated (hs ++ [h]) = repeated hs ++ if h.1 ∈ hs.map Prod.fst then [h] else [] := by
  have hfront : hs.zipIdx.filter (fun p => (((hs ++ [h]).take p.2).map Prod.fst).contains p.1.1) =
      hs.zipIdx.filter fun p => ((hs.take p.2).map Prod.fst).contains p.1.1 := by
    refine List.filter_congr fun p hp => ?_
    have hlt := List.snd_lt_of_mem_zipIdx hp
    rw [List.take_append_of_le_length (by omega)]
  unfold repeated
  rw [List.zipIdx_append, List.filter_append, List.map_append, hfront, Nat.zero_add,
    List.zipIdx_singleton, List.filter_singleton, List.take_left]
  dsimp only
  rw [List.contains_eq_mem]
  by_cases hmem : h.1 ∈ hs.map Prod.fst
  · rw [if_pos hmem, decide_eq_true hmem]
    rfl
  · rw [if_neg hmem, decide_eq_false hmem]
    rfl

theorem duplicates_append (is js : List Issue) :
    duplicates (is ++ js) = duplicates is ++ duplicates js := by
  rw [duplicates, List.filter_append, List.map_append]
  rfl

/-- **One issue is given for each repeated header**, whatever headers came before. -/
theorem duplicates_repeatedHeaders {seen before : List (String × Nat)}
    (hseen : ∀ id, (seen.lookup id).isSome = true ↔ id ∈ before.map Prod.fst)
    (hs : List (String × Nat)) :
    (repeated (before ++ hs)).map reported =
      (repeated before).map reported ++ duplicates (repeatedHeaders seen hs) := by
  induction hs generalizing seen before with
  | nil =>
    rw [List.append_nil]
    exact (List.append_nil _).symm
  | cons h hs ih =>
    obtain ⟨id, n⟩ := h
    rw [List.append_cons, repeatedHeaders]
    cases hid : seen.lookup id with
    | some first =>
      have hmem : id ∈ before.map Prod.fst := (hseen id).1 (by rw [hid]; rfl)
      rw [@ih seen, repeated_concat, if_pos hmem, List.map_append, List.append_assoc]
      · rfl
      · intro other
        rw [hseen, List.map_append, List.mem_append, List.map_singleton, List.mem_singleton]
        refine ⟨.inl, fun h => h.elim (fun hother => hother) ?_⟩
        rintro rfl
        exact hmem
    | none =>
      have hmem : id ∉ before.map Prod.fst := fun hmem => by
        have hsome := (hseen id).2 hmem
        rw [hid] at hsome
        cases hsome
      dsimp only
      rw [@ih ((id, n) :: seen), repeated_concat, if_neg hmem, List.append_nil]
      · intro other
        rw [List.lookup_cons, List.map_append, List.mem_append, List.map_singleton,
          List.mem_singleton, ← hseen]
        by_cases hother : other = id
        · rw [hother, beq_self_eq_true]
          exact iff_of_true rfl (.inr rfl)
        · rw [beq_false_of_ne hother]
          exact (or_iff_left hother).symm

/-! ## Issues of blocks -/

theorem duplicates_eq_nil {issues : List Issue}
    (h : ∀ i ∈ issues, i.finding.isDuplicate = false) : duplicates issues = [] := by
  rw [duplicates, List.map_eq_nil_iff, List.filter_eq_nil_iff]
  intro i hi
  rw [h i hi]
  exact Bool.false_ne_true

theorem eq_of_mem_ite {α : Type} {c : Prop} [Decidable c] {a b : α}
    (h : a ∈ if c then [b] else []) : a = b := by
  split at h
  · exact List.mem_singleton.1 h
  · cases h

/-- What may be wrong with a value has nothing to do with scenes. -/
theorem isDuplicate_of_mem_checkValue {value : List Char} {f : Finding}
    (h : f ∈ checkValue value) : f.isDuplicate = false := by
  unfold checkValue at h
  dsimp only at h
  split at h
  · rw [eq_of_mem_ite h]
    rfl
  · rcases List.mem_append.1 h with h | h
    · rcases List.mem_append.1 h with h | h
      · rw [eq_of_mem_ite h]
        rfl
      · rw [eq_of_mem_ite h]
        rfl
    · rw [eq_of_mem_ite h]
      rfl

theorem isDuplicate_of_mem_checkLine {b : YamlBlock} {p : List Char × Nat} {i : Issue}
    (h : i ∈ checkLine b p) : i.finding.isDuplicate = false := by
  obtain ⟨f, hf, rfl⟩ := List.mem_map.1 h
  cases hvalue : lineValue? p.1 with
  | none =>
    rw [hvalue] at hf
    cases hf
  | some value =>
    rw [hvalue] at hf
    exact isDuplicate_of_mem_checkValue hf

theorem isDuplicate_of_loadIssue {b : YamlBlock} {i : Option Issue} (h : loadIssue b = .ok i) :
    ∀ issue ∈ i, issue.finding.isDuplicate = false := by
  unfold loadIssue at h
  dsimp only at h
  split at h
  · cases h
    rintro issue ⟨⟩
  · cases h
    rintro issue ⟨⟩
    rfl
  · cases h
    rintro issue ⟨⟩
    rfl
  · cases h

/-- No issue of a block is that a scene is doubled. -/
theorem isDuplicate_of_checkBlock {b : YamlBlock} {issues : List Issue}
    (h : checkBlock b = .ok issues) : ∀ i ∈ issues, i.finding.isDuplicate = false := by
  obtain ⟨unreadable, hunreadable, h⟩ := Except.bind_eq_ok_iff.1 h
  cases h
  intro i hi
  rcases List.mem_append.1 hi with hi | hi
  · exact isDuplicate_of_loadIssue hunreadable i (Option.mem_toList.1 hi)
  · obtain ⟨p, -, hp⟩ := List.mem_flatMap.1 hi
    exact isDuplicate_of_mem_checkLine hp

/-- A block can be checked if it can be read, or if reading it ends in a problem of its text. -/
theorem exists_checkBlock_iff {b : YamlBlock} :
    (∃ issues, checkBlock b = .ok issues) ↔
      ∀ d, Yaml.load (dedent b.body.toList) ≠ .error (.defect d) := by
  refine (Except.exists_bind_iff fun _ => ⟨_, rfl⟩).trans ?_
  unfold loadIssue
  constructor
  · rintro ⟨i, h⟩ d hd
    rw [hd] at h
    cases h
  · intro h
    dsimp only
    split
    · exact ⟨_, rfl⟩
    · exact ⟨_, rfl⟩
    · exact ⟨_, rfl⟩
    · next d hd => exact absurd hd (h d)

theorem not_defect_of_isOk {s : List Char} (h : (Yaml.load s).isOk = true) (d : Yaml.Defect) :
    Yaml.load s ≠ .error (.defect d) := by
  intro hd
  rw [hd] at h
  cases h

/-- **A script can be checked** unless reading one of its blocks fails for no problem of its
text. -/
theorem exists_checkScript_iff {source : String} :
    (∃ issues, checkScript source = .ok issues) ↔
      ∀ b ∈ yamlBlocks source, ∀ d, Yaml.load (dedent b.body.toList) ≠ .error (.defect d) := by
  refine (Except.exists_bind_iff fun _ => ⟨_, rfl⟩).trans ?_
  rw [Except.exists_mapM_iff]
  exact forall₂_congr fun b _ => exists_checkBlock_iff

/-- The scenes that are reported as doubled are those of repeated headers. -/
theorem duplicates_checkScript {source : String} {issues : List Issue}
    (h : checkScript source = .ok issues) :
    duplicates issues =
      (repeated (headers false ((scriptLines source).zipIdx 1))).map reported := by
  obtain ⟨blocks, hblocks, h⟩ := Except.bind_eq_ok_iff.1 h
  cases h
  have hnone : duplicates blocks.flatten = [] := duplicates_eq_nil fun i hi => by
    obtain ⟨found, hfound, hi⟩ := List.mem_flatten.1 hi
    obtain ⟨b, -, hb⟩ := Except.exists_of_mem_mapM hblocks hfound
    exact isDuplicate_of_checkBlock hb i hi
  have hrepeated := @duplicates_repeatedHeaders [] [] (by simp)
    (headers false ((scriptLines source).zipIdx 1))
  rw [duplicates_append, hnone, List.nil_append]
  exact hrepeated.symm

/-! ## Paired marks -/

/-- Whether a line is neither a header nor bears the mark of a fence. -/
def Quiet (l : List Char) : Prop :=
  header? l = none ∧ fenceInfo? l = none

instance (l : List Char) : Decidable (Quiet l) :=
  inferInstanceAs (Decidable (header? l = none ∧ fenceInfo? l = none))

/-- Whether every mark inside a fence closes it, among lines of which the first stands in the
region. -/
def marksClose (r : Region) : List (List Char) → Bool
  | [] => true
  | l :: ls => (r != .fence || (fenceInfo? l).isNone || closesFence l) && marksClose (r.next l) ls

/-- A script in which every mark of a fence starts or ends one: front matter is quiet, lines in
front of the scenes bear no marks, and a mark inside a fence closes it. -/
structure Paired (p : Parts) : Prop where
  metadata : ∀ l ∈ lines p.metadata.toList, Quiet l
  preamble : ∀ l ∈ (lines p.body.toList).takeWhile fun l => (header? l).isNone, fenceInfo? l = none
  scenes : marksClose .scene ((lines p.body.toList).dropWhile fun l => (header? l).isNone) = true

theorem quiet_of_idle {l : List Char} (h : isIdle l = true) : Quiet l :=
  ⟨header?_of_idle h, fenceInfo?_of_idle h⟩

/-- Byte order marks in front of an idle line leave it quiet. -/
theorem quiet_append_of_idle {marks l : List Char} (hmarks : ∀ c ∈ marks, c = '\uFEFF')
    (hl : isIdle l = true) : Quiet (marks ++ l) := by
  cases marks with
  | nil => exact quiet_of_idle hl
  | cons c marks =>
    obtain ⟨rfl, -⟩ := List.forall_mem_cons.1 hmarks
    obtain ⟨t, ht⟩ := prefix_trim (c := '\uFEFF') (by decide) (marks ++ l)
    refine ⟨rfl, ?_⟩
    -- The trimmed line still begins with the first mark.
    rw [List.cons_append, fenceInfo?]
    cases htrim : trim ('\uFEFF' :: (marks ++ l)) with
    | nil => rfl
    | cons c r =>
      rw [htrim, List.cons_append] at ht
      obtain ⟨rfl, -⟩ := List.cons.inj ht
      rfl

section

variable {l : List Char} {n : Nat} {ls : List (List Char × Nat)}

/-- A mark opens a fence or closes it. -/
theorem headers_mark {inFence : Bool} (h : (fenceInfo? l).isSome = true) :
    headers inFence ((l, n) :: ls) = headers (!inFence) ls := by
  rw [headers, if_pos h]

theorem headers_inside (h : fenceInfo? l = none) :
    headers true ((l, n) :: ls) = headers true ls := by
  rw [headers, h]
  rfl

theorem headers_outside (h : fenceInfo? l = none) :
    headers false ((l, n) :: ls) =
      ((header? l).map fun id => (id, n)).toList ++ headers false ls := by
  rw [headers, h]
  cases header? l with
  | none => rfl
  | some id => rfl

end

/-- Quiet lines are passed over. -/
theorem headers_of_quiet {front : List (List Char)} (h : ∀ l ∈ front, Quiet l) (n : Nat)
    (ls : List (List Char)) :
    headers false ((front ++ ls).zipIdx n) = headers false (ls.zipIdx (n + front.length)) := by
  induction front generalizing n with
  | nil => rfl
  | cons l front ih =>
    obtain ⟨⟨hid, hinfo⟩, hfront⟩ := List.forall_mem_cons.1 h
    rw [List.cons_append, List.zipIdx_cons, headers_outside hinfo, hid, ih hfront,
      List.length_cons, Nat.add_right_comm, Nat.add_assoc]
    rfl

theorem header?_of_fenceInfo? {l : List Char} {info : String} (h : fenceInfo? l = some info) :
    header? l = none := by
  rw [Option.eq_none_iff_forall_ne_some]
  intro id hid
  rw [fenceInfo?_of_header hid] at h
  cases h

theorem fenceInfo?_of_closesFence {l : List Char} (h : closesFence l = true) :
    fenceInfo? l = some "" := by
  rw [fenceInfo?, beq_iff_eq.1 h]
  rfl

/-- **In scenes with paired marks the headers that are checked are those that are read.** -/
theorem headers_eq_scene_headers {r : Region} (hr : r ≠ .preamble) (n : Nat) (ls : List (List Char))
    (h : marksClose r ls = true) : headers (r = .fence) (ls.zipIdx n) = r.headers n ls := by
  induction ls generalizing r n with
  | nil => rfl
  | cons l ls ih =>
    obtain ⟨hl, hls⟩ := Bool.and_eq_true_iff.1 h
    have hrest (hnext : r.next l ≠ .preamble) := ih hnext (n + 1) hls
    rw [List.zipIdx_cons, Region.headers]
    -- The check is inside a fence exactly when the line stands in one.
    cases r with
    | preamble => exact absurd rfl hr
    | scene =>
      cases hinfo : fenceInfo? l with
      | none =>
        have hnext : Region.scene.next l = .scene := by rw [Region.next, hinfo]; rfl
        rw [hnext] at hrest ⊢
        rw [← hrest hr]
        exact headers_outside hinfo
      | some info =>
        have hnext : Region.scene.next l = .fence := by rw [Region.next, hinfo]; rfl
        rw [hnext] at hrest ⊢
        have hnone : Region.scene.newScene? l = none := header?_of_fenceInfo? hinfo
        rw [← hrest Region.noConfusion, hnone]
        exact headers_mark (by rw [hinfo]; rfl)
    | fence =>
      cases hinfo : fenceInfo? l with
      | none =>
        have hopen : ¬ closesFence l = true := fun hcloses => by
          rw [fenceInfo?_of_closesFence hcloses] at hinfo
          cases hinfo
        have hnext : Region.fence.next l = .fence := if_neg hopen
        rw [hnext] at hrest ⊢
        rw [← hrest hr]
        exact headers_inside hinfo
      | some info =>
        rw [hinfo] at hl
        have hnext : Region.fence.next l = .scene := if_pos hl
        rw [hnext] at hrest ⊢
        rw [← hrest Region.noConfusion]
        exact headers_mark (by rw [hinfo]; rfl)

/-! ## Scripts -/

theorem headers_zipIdx_unlines {inFence : Bool} {n : Nat} {ls : List (List Char)}
    (hbreak : ∀ l ∈ ls, '\n' ∉ l) :
    headers inFence ((lines (unlines ls)).zipIdx n) = headers inFence (ls.zipIdx n) := by
  cases ls with
  | nil => cases inFence <;> rfl
  | cons l ls => rw [lines_unlines (List.cons_ne_nil l ls) hbreak]

theorem isIdle_of_isRule {l : List Char} (h : isRule l = true) : isIdle l = true := by
  rw [isIdle, h, Bool.or_true]

theorem isIdle_of_mem_blankFront {source : String} : ∀ l ∈ blankFront source, isIdle l = true := by
  intro l hl
  have hempty : (trim l).isEmpty = true := List.all_eq_true.1 List.all_takeWhile l hl
  rw [isIdle, hempty, Bool.true_or]

/-- The lines in front of the body are quiet or lines of front matter. -/
theorem exists_front {source : String} {p : Parts} (hp : split? source = some p) :
    ∃ front body, scriptLines source = front ++ body ∧ p.body = String.ofList (unlines body) ∧
      p.bodyLine = 1 + front.length ∧ (∀ l ∈ body, '\n' ∉ l) ∧
      ∀ l ∈ front, Quiet l ∨ l ∈ lines p.metadata.toList := by
  obtain ⟨opening, metadata, closing, body, hread, hopening, hclosing, -, rfl⟩ :=
    split?_eq_some hp
  obtain ⟨marks, l, ls, hmarks, hl, hscript⟩ := exists_scriptLines source
  have hbreak : ∀ k ∈ readLines source, '\n' ∉ k := fun k hk => not_mem_of_mem_lines hk
  have hidle : ∀ k ∈ blankFront source ++ [opening], isIdle k = true :=
    List.forall_mem_append.2 ⟨isIdle_of_mem_blankFront,
      List.forall_mem_singleton.2 (isIdle_of_isRule hopening)⟩
  -- The marks stand in front of a blank line or of the first rule, whichever comes first.
  obtain ⟨f, fs, hfront⟩ := List.exists_cons_of_ne_nil
    (List.append_ne_nil_of_right_ne_nil (blankFront source) (List.cons_ne_nil opening []))
  have hlength := congrArg List.length hfront
  rw [hfront] at hidle
  rw [List.append_cons, hfront] at hread
  have hcut := hl.symm.trans hread
  rw [List.cons_append] at hcut
  obtain ⟨rfl, rfl⟩ := List.cons.inj hcut
  rw [hread] at hbreak
  have hmetadata : ∀ k ∈ metadata, k ∈ lines (unlines metadata) := by
    intro k hk
    rwa [lines_unlines (List.ne_nil_of_mem hk)]
    exact fun m hm => hbreak m (List.mem_append_right _ (List.mem_append_left _ hm))
  refine ⟨(marks ++ l) :: (fs ++ metadata ++ [closing]), body, ?_, rfl, ?_, ?_, ?_⟩
  · rw [hscript]
    simp
  · simp only [List.length_cons, List.length_append, List.length_nil] at hlength ⊢
    omega
  · exact fun k hk => hbreak k (by simp [hk])
  · refine List.forall_mem_cons.2
      ⟨.inl (quiet_append_of_idle hmarks (hidle l List.mem_cons_self)), ?_⟩
    rw [List.forall_mem_append, List.forall_mem_append, List.forall_mem_singleton,
      String.toList_ofList]
    refine ⟨⟨fun k hk => ?_, fun k hk => .inr (hmetadata k hk)⟩, ?_⟩
    · exact .inl (quiet_of_idle (hidle k (List.mem_cons_of_mem l hk)))
    · exact .inl (quiet_of_idle (isIdle_of_isRule hclosing))

/-- If front matter is quiet, the headers that are checked are those of the lines behind it. -/
theorem headers_scriptLines {source : String} {p : Parts} (hp : split? source = some p)
    (hquiet : ∀ l ∈ lines p.metadata.toList, Quiet l) :
    headers false ((scriptLines source).zipIdx 1) =
      headers false ((lines p.body.toList).zipIdx p.bodyLine) := by
  obtain ⟨front, body, hscript, hbody, hline, hbreak, hfront⟩ := exists_front hp
  have hall : ∀ l ∈ front, Quiet l := fun l hl => (hfront l hl).elim id (hquiet l)
  rw [hscript, headers_of_quiet hall, hbody, hline, String.toList_ofList,
    headers_zipIdx_unlines hbreak]

/-- The headers that are checked are those of the scenes that are read, if every mark of a fence
starts or ends one. -/
theorem headers_of_paired {source : String} {p : Parts} {ds : List Draft}
    (hp : split? source = some p) (hds : (drafts p.bodyLine p.body).result = .ok ds)
    (hpaired : Paired p) :
    headers false ((scriptLines source).zipIdx 1) = ds.map Draft.heading := by
  rw [headers_scriptLines hp hpaired.metadata]
  obtain ⟨preamble, rest, hbody, hpreamble, hrest⟩ := exists_preamble (lines p.body.toList)
  have hcut := takeWhile_append_preamble hpreamble hrest
  have hdrop := List.takeWhile_append_dropWhile
    (p := fun l => (header? l).isNone) (l := preamble ++ rest)
  rw [hcut, List.append_cancel_left_eq] at hdrop
  rw [drafts, hbody, result_draftsOfLines hpreamble hrest] at hds
  obtain ⟨hclosed, rfl⟩ := scenesOf_eq_ok hds
  obtain ⟨-, hmarks, hscenes⟩ := hpaired
  rw [hbody, hcut] at hmarks
  rw [hbody, hdrop] at hscenes
  have hquiet : ∀ l ∈ preamble, Quiet l := fun l hl => ⟨hpreamble l hl, hmarks l hl⟩
  rw [hbody, headers_of_quiet hquiet, map_heading_group _ _ (ne_unclosed_of_unclosed? hclosed)]
  exact headers_eq_scene_headers Region.noConfusion _ _ hscenes

/-- **The scenes that are reported as doubled are those that are read twice.** A script can be
checked unless reading one of its blocks fails for no problem of its text. One issue is then given
for each header that the check finds and whose name it found before; and if every mark of a fence
starts or ends one, these headers are those of the scenes that are read. -/
theorem checkScript_duplicates {strict : Bool} {source : String} {g : Game}
    (h : (parse strict source).result = .ok (.ok g)) :
    ∃ p ds, split? source = some p ∧ (drafts p.bodyLine p.body).result = .ok ds ∧
      ((∃ issues, checkScript source = .ok issues) ↔
        ∀ b ∈ yamlBlocks source, ∀ d, Yaml.load (dedent b.body.toList) ≠ .error (.defect d)) ∧
      ∀ issues, checkScript source = .ok issues →
        duplicates issues =
            (repeated (headers false ((scriptLines source).zipIdx 1))).map reported ∧
          (Paired p → duplicates issues = (repeated (ds.map Draft.heading)).map reported) := by
  obtain ⟨p, ds, hp, hds⟩ := exists_parts_of_parse h
  refine ⟨p, ds, hp, hds, exists_checkScript_iff, fun issues hissues => ?_⟩
  have hduplicates := duplicates_checkScript hissues
  refine ⟨hduplicates, fun hpaired => ?_⟩
  rw [hduplicates, headers_of_paired hp hds hpaired]

/-- A scene that is read twice, with a header in a fence between the two. -/
def doubledBody : String :=
  "intro\n# start\n```py\n# start\n```\n# start"

def doubledDrafts : List Draft :=
  [{ id := "start", line := 5, blocks := [{ line := 6, form := .text "```py\n# start\n```" }] },
    { id := "start", line := 9 }]

/-- The header in the fence is not reported, the one behind it is. -/
theorem doubled_duplicates :
    (∃ g, (parse false ("---\ntitle: T\n---\n" ++ doubledBody)).result = .ok (.ok g)) ∧
      ∃ issues, checkScript ("---\ntitle: T\n---\n" ++ doubledBody) = .ok issues ∧
        duplicates issues = [(some "start", some 9)] := by
  have hparts : split? ("---\ntitle: T\n---\n" ++ doubledBody) =
      some { metadata := "title: T", body := doubledBody, bodyLine := 4 } := by decide +kernel
  have hdrafts : (drafts 4 doubledBody).result = .ok doubledDrafts := by cbv
  obtain ⟨g, hg⟩ := exists_parse_of_isOk (by decide +kernel) hparts (by decide +kernel) hdrafts
    (by decide +kernel)
  obtain ⟨p, ds, hp, hds, hchecked, hduplicates⟩ := checkScript_duplicates hg
  obtain rfl := Option.some.inj (hparts.symm.trans hp)
  obtain rfl := Except.ok.inj (hdrafts.symm.trans hds)
  have hpaired : Paired { metadata := "title: T", body := doubledBody, bodyLine := 4 } := by
    constructor
    · decide +kernel
    · decide +kernel
    · decide +kernel
  have hblocks : yamlBlocks ("---\ntitle: T\n---\n" ++ doubledBody) =
      [{ kind := "frontmatter", body := "title: T", line := 1 }] := by cbv
  obtain ⟨issues, hissues⟩ := hchecked.2 <| by
    rw [hblocks, List.forall_mem_singleton]
    exact not_defect_of_isOk (by decide +kernel)
  refine ⟨⟨g, hg⟩, issues, hissues, ?_⟩
  rw [(hduplicates issues hissues).2 hpaired]
  decide +kernel

/-- A script with a comment in its front matter. -/
def remarkedSource : String :=
  "---\n# start\ntitle: T\n---\n# start"

/-- A comment in front matter is taken for a scene, which is then reported as doubled. -/
theorem remarked_duplicates :
    (∃ g, (parse false remarkedSource).result = .ok (.ok g)) ∧
      ∃ issues, checkScript remarkedSource = .ok issues ∧
        ∀ p ds, split? remarkedSource = some p → (drafts p.bodyLine p.body).result = .ok ds →
          duplicates issues ≠ (repeated (ds.map Draft.heading)).map reported := by
  have hparts : split? remarkedSource =
      some { metadata := "# start\ntitle: T", body := "# start", bodyLine := 5 } := by
    decide +kernel
  have hdrafts : (drafts 5 "# start").result = .ok [{ id := "start", line := 5 }] := by cbv
  have hblocks : yamlBlocks remarkedSource =
      [{ kind := "frontmatter", body := "# start\ntitle: T", line := 1 }] := by cbv
  obtain ⟨issues, hissues⟩ := exists_checkScript_iff.2 <| by
    rw [hblocks, List.forall_mem_singleton]
    exact not_defect_of_isOk (by decide +kernel)
  refine ⟨exists_parse_of_isOk (by decide +kernel) hparts (by decide +kernel) hdrafts
    (by decide +kernel), issues, hissues, fun p ds hp hds => ?_⟩
  obtain rfl := Option.some.inj (hparts.symm.trans hp)
  obtain rfl := Except.ok.inj (hdrafts.symm.trans hds)
  have hheaders : headers false ((scriptLines remarkedSource).zipIdx 1) =
      [("start", 2), ("start", 5)] := by decide +kernel
  rw [duplicates_checkScript hissues, hheaders]
  decide

end Storyline.Lint
