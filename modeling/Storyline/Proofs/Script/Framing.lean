import Storyline.Proofs.Script.Fields
import Storyline.Proofs.Script.Pieces
import Storyline.Proofs.Yaml.Rows
import Storyline.Script.Metadata

/-!
# Data between rules and fences

Front matter stands between two rules, and the fields of generated media between two fences. No line
of written data is a rule or closes a fence, so what is read between them is what was written,
whatever texts the story holds.

## Main results

* `not_delimiter_of_row`: a line of written data is neither a rule nor closes a fence
* `split?_of_write`: the front matter of a written story is found again
* `pieces_fenceLines`: the fence of written media is read as one piece
* `written_data_framed`: all of this together
-/

namespace Storyline.Script

open Text
open Yaml (Data Row Starts)

/-! ## Lines of data -/

/-- A row, trimmed, is no mark without a colon whose second character is not a space. -/
theorem trim_ne_of_row {l mark : List Char} (h : Row l) (hcolon : ':' ∉ mark) {a b : Char}
    {r : List Char} (hmark : mark = a :: b :: r) (hspace : b ≠ ' ') : trim l ≠ mark := by
  rintro rfl
  rcases h.trimmed with hmem | ⟨c, t, -, hprefix⟩
  · exact hcolon hmem
  · rw [hmark, List.cons_prefix_cons, List.cons_prefix_cons] at hprefix
    exact hspace hprefix.2.1

/-- A line of written data is neither a rule nor closes a fence. -/
theorem not_delimiter_of_row {l : List Char} (h : Row l) :
    isRule l = false ∧ closesFence l = false :=
  ⟨beq_false_of_ne (trim_ne_of_row h (by decide) rfl (by decide)),
    beq_false_of_ne (trim_ne_of_row h (by decide) rfl (by decide))⟩

/-- No line of a mapping is a rule or closes a fence, whatever its keys and values are. -/
theorem not_delimiter_of_renderBody {inline : List String} {entries : List (Value × Value)}
    {text : List Char} (hdata : Data (.map entries))
    (h : Yaml.renderBody inline entries = .ok text) :
    ∀ l ∈ lines text, isRule l = false ∧ closesFence l = false := by
  cases entries with
  | nil =>
    cases h
    decide
  | cons e es =>
    have hstarts := Yaml.starts_of_renderBody (List.cons_ne_nil e es) hdata h
    exact fun l hl => not_delimiter_of_row (hstarts.forall_row l hl)

theorem not_delimiter_of_render {inline : List String} {entries : List (Value × Value)}
    {text : List Char} (hdata : Data (.map entries)) (h : Yaml.render inline entries = .ok text) :
    ∀ l ∈ lines text, isRule l = false ∧ closesFence l = false := by
  obtain ⟨body, hbody, h⟩ := Except.bind_eq_ok_iff.1 h
  cases h
  rw [lines_append_break]
  exact List.forall_mem_append.2 ⟨not_delimiter_of_renderBody hdata hbody, by decide⟩

theorem render_eq_ok {inline : List String} {entries : List (Value × Value)} {text : List Char}
    (h : Yaml.renderBody inline entries = .ok text) :
    Yaml.render inline entries = .ok (text ++ ['\n']) :=
  Except.bind_eq_ok_iff.2 ⟨text, h, rfl⟩

/-! ## Front matter -/

/-- Lines go on to the first rule among them. -/
theorem untilRule?_append {ls : List (List Char)} (h : ∀ l ∈ ls, isRule l = false)
    {l : List Char} (hl : isRule l = true) (rest : List (List Char)) :
    untilRule? (ls ++ l :: rest) = some (ls, rest) := by
  induction ls with
  | nil => rw [List.nil_append, untilRule?, if_pos hl]
  | cons k ks ih =>
    rw [List.forall_mem_cons] at h
    rw [List.cons_append, untilRule?, if_neg (by simp [h.1]), ih h.2]
    rfl

/-- The front matter of a script that begins with a rule, and the text behind it. -/
theorem splitLines?_metadata {ls : List (List Char)} (h : ∀ l ∈ ls, isRule l = false)
    (rest : List (List Char)) : ∃ p, splitLines? (rule :: ls ++ rule :: rest) = some p ∧
      p.metadata = String.ofList (unlines ls) ∧ p.body = String.ofList (unlines rest) := by
  have hblank : (rule :: ls ++ rule :: rest).takeWhile (fun l => (trim l).isEmpty) = [] :=
    List.takeWhile_cons_of_neg (by decide)
  unfold splitLines?
  dsimp only
  rw [hblank, List.length_nil, List.drop_zero, List.cons_append]
  dsimp only
  rw [if_pos (by decide), untilRule?_append h (by decide)]
  exact ⟨_, rfl, rfl, rfl⟩

/-- What follows a rule that ends its line is on other lines. -/
theorem lines_rule_append {t : List Char} (h : t = [] ∨ ∃ r, t = '\n' :: r) :
    ∃ rest, lines (rule ++ t) = rule :: rest := by
  rcases h with rfl | ⟨r, rfl⟩
  · exact ⟨[], lines_eq_singleton (by decide)⟩
  · exact ⟨lines r, lines_append_break rule r⟩

/-- A text between two rules. -/
def framed (text : List Char) : List Char :=
  rule ++ '\n' :: text ++ '\n' :: rule

theorem head?_framed (text : List Char) : (framed text).head? = some '-' := rfl

theorem getLast?_framed (text : List Char) : (framed text).getLast? = some '-' := by
  rw [framed, List.append_cons, List.getLast?_append_of_ne_nil _ (by decide)]
  rfl

/-- The front matter of a script that begins with it, and the text behind it. -/
theorem split?_framed {text t : List Char} (hreturn : '\r' ∉ text)
    (hrule : ∀ l ∈ lines text, isRule l = false) (ht : t = [] ∨ ∃ r, t = '\n' :: r) :
    ∃ p rest, split? (String.ofList (framed text ++ t)) = some p ∧
      p.metadata = String.ofList text ∧ p.body = String.ofList (unlines rest) ∧
        lines (rule ++ normalizeBreaks t) = rule :: rest := by
  -- No line break of the frame is changed, and the two rules are the first ones there are.
  have hbreaks : normalizeBreaks (framed text ++ t) = framed text ++ normalizeBreaks t :=
    normalizeBreaks_append (by simp [framed, rule, hreturn]) t
  have ht' : normalizeBreaks t = [] ∨ ∃ r, normalizeBreaks t = '\n' :: r := by
    rcases ht with rfl | ⟨r, rfl⟩
    · exact .inl rfl
    · exact .inr ⟨normalizeBreaks r, normalizeBreaks_append (s := ['\n']) (by decide) r⟩
  obtain ⟨rest, hrest⟩ := lines_rule_append ht'
  have hlines : lines (framed text ++ normalizeBreaks t) =
      rule :: lines text ++ rule :: rest := by
    rw [framed, List.append_assoc, List.append_assoc, List.cons_append, lines_append_break,
      List.cons_append, lines_append_break, hrest, lines_eq_singleton (l := rule) (by decide)]
    rfl
  obtain ⟨p, hp, hmetadata, hbody⟩ := splitLines?_metadata hrule rest
  have hmark : (framed text ++ t).dropWhile (· = '\uFEFF') = framed text ++ t :=
    List.dropWhile_cons_of_neg (by decide)
  refine ⟨p, rest, ?_, by rw [hmetadata, unlines_lines], hbody, hrest⟩
  rw [split?, String.toList_ofList, hmark, hbreaks, hlines, hp]

/-- A written story begins with its front matter between rules. -/
theorem exists_write_eq {g : Game} {source : String} (h : write g = .ok source) :
    ∃ text t, writeMetadata g = .ok text ∧ (t = [] ∨ ∃ r, t = '\n' :: r) ∧
      source = String.ofList (framed text ++ t) := by
  obtain ⟨text, htext, h⟩ := Except.bind_eq_ok_iff.1 h
  obtain ⟨scenes, -, h⟩ := Except.bind_eq_ok_iff.1 h
  cases h
  -- Trimming the whole story takes nothing of the frame, of which both ends are rules.
  have hne : framed text ≠ [] := List.append_ne_nil_of_right_ne_nil _ (List.cons_ne_nil _ _)
  have hhead : ∀ c ∈ (framed text).head?, isBlank c = false := by
    rw [head?_framed]
    rintro c ⟨⟩
    decide
  have hlast : ∀ c ∈ (framed text).getLast?, isBlank c = false := by
    rw [getLast?_framed]
    rintro c ⟨⟩
    decide
  obtain ⟨r, hr, htrim⟩ := exists_trim_append hne hhead hlast
    (['\n', '\n'] ++ List.intercalate (['\n', '\n'] ++ rule ++ ['\n', '\n']) (scenes.map unlines))
  refine ⟨text, r, htext, ?_, ?_⟩
  · cases r with
    | nil => exact .inl rfl
    | cons c r => exact .inr ⟨r, by rw [(List.cons_prefix_cons.1 hr).1]⟩
  · rw [← htrim, framed, List.append_assoc _ ['\n', '\n']]

/-- **The front matter of a written story is found again.** -/
theorem split?_of_write {g : Game} {source : String} (h : write g = .ok source) :
    ∃ text p, writeMetadata g = .ok text ∧ split? source = some p ∧
      p.metadata = String.ofList text := by
  obtain ⟨text, t, htext, ht, rfl⟩ := exists_write_eq h
  have hdata := data_metadataEntries g
  have hshown := Yaml.allShown_of_renderBody (metadataEntries_ne_nil g) hdata htext
  have hreturn : '\r' ∉ text := fun hmem => absurd (hshown '\r' hmem) (by decide)
  obtain ⟨p, -, hp, hmetadata, -⟩ := split?_framed hreturn
    (fun l hl => (not_delimiter_of_renderBody hdata htext l hl).1) ht
  exact ⟨text, p, htext, hp, hmetadata⟩

/-! ## Fences -/

/-- The lines that open fences around data. -/
theorem opens_fence : ∀ fence ∈ mediaFences, header? (fenceMark ++ fence.toList) = none ∧
    fenceInfo? (fenceMark ++ fence.toList) = some fence ∧ '\n' ∉ fenceMark ++ fence.toList := by
  decide

theorem fenceName_mem (media : Generated) : fenceName media ∈ mediaFences := by
  cases media <;> simp [fenceName, mediaFences]

/-- The lines of generated media are a fence around their fields. -/
theorem nodeLines_generated {media : Generated} {ls : List (List Char)}
    (h : nodeLines (.generated media) = .ok ls) :
    ∃ text, Yaml.renderBody ["characters"] (asEntries (mediaFields media)) = .ok text ∧
      ls = (fenceMark ++ (fenceName media).toList) :: lines text ++ [fenceMark] := by
  obtain ⟨text, htext, h⟩ := Except.bind_eq_ok_iff.1 h
  cases h
  exact ⟨text, htext, rfl⟩

/-- **The fence of written media is read as one piece**, whatever follows it. -/
theorem pieces_fenceLines {media : Generated} {text : List Char}
    (h : Yaml.renderBody ["characters"] (asEntries (mediaFields media)) = .ok text) (n : Nat)
    (rest : List (List Char)) :
    pieces n ((fenceMark ++ (fenceName media).toList) :: lines text ++ fenceMark :: rest) =
      (n, .form (.fence (fenceName media) (String.ofList text)) "") ::
        pieces (n + (lines text).length + 2) rest := by
  obtain ⟨hheader, hinfo, -⟩ := opens_fence _ (fenceName_mem media)
  have hname := List.contains_iff_mem.2 (fenceName_mem media)
  have hinside : ∀ l ∈ lines text, closesFence l = false := fun l hl =>
    (not_delimiter_of_renderBody (data_mediaFields media) h l hl).2
  have hclosing := closing?_append hinside (l := fenceMark) (by decide) rest
  rw [List.cons_append, pieces_fence hheader hinfo hname hclosing, unlines_lines]

/-- A scene of generated media alone is read as one fence with what was written in it. -/
theorem drafts_generated {media : Generated} {ls : List (List Char)}
    (h : nodeLines (.generated media) = .ok ls) :
    ∃ text, Yaml.renderBody ["characters"] (asEntries (mediaFields media)) = .ok text ∧
      drafts 1 (String.ofList (unlines ("# s".toList :: ls))) =
        { warnings := [], result := .ok [{ id := "s", line := 1, blocks :=
            [{ line := 2, form := .fence (fenceName media) (String.ofList text) }] }] } := by
  obtain ⟨text, htext, rfl⟩ := nodeLines_generated h
  have hbreak : ∀ l ∈ "# s".toList :: ((fenceMark ++ (fenceName media).toList) :: lines text ++
      [fenceMark]), '\n' ∉ l := by
    rw [List.forall_mem_cons, List.cons_append, List.forall_mem_cons, List.forall_mem_append]
    have hopening := (opens_fence _ (fenceName_mem media)).2.2
    exact ⟨by decide, hopening, fun l hl => not_mem_of_mem_lines hl, by decide⟩
  have hheader : header? "# s".toList = some "s" := by decide
  refine ⟨text, htext, ?_⟩
  rw [drafts, String.toList_ofList, lines_unlines (List.cons_ne_nil _ _) hbreak]
  have hpieces : pieces 2 ((fenceMark ++ (fenceName media).toList) :: lines text ++ [fenceMark]) =
      [(2, .form (.fence (fenceName media) (String.ofList text)) "")] := by
    rw [pieces_fenceLines htext, pieces_nil]
  rw [draftsOfLines_header hheader, hpieces]
  · rfl
  · rw [hpieces]
    rfl

/-- **Written data stay between their marks.** -/
theorem written_data_framed :
    (∀ g source, write g = .ok source →
      ∃ text p, Yaml.render [] (asEntries (metadataEntries g)) = .ok (text ++ ['\n']) ∧
        split? source = some p ∧ p.metadata = String.ofList text) ∧
    (∀ media ls, nodeLines (.generated media) = .ok ls →
      ∃ text, Yaml.render ["characters"] (asEntries (mediaFields media)) = .ok (text ++ ['\n']) ∧
        drafts 1 (String.ofList (unlines ("# s".toList :: ls))) =
          { warnings := [], result := .ok [{ id := "s", line := 1, blocks :=
              [{ line := 2, form := .fence (fenceName media) (String.ofList text) }] }] }) ∧
    ∀ inline entries text, Data (.map entries) → Yaml.render inline entries = .ok text →
      ∀ l ∈ lines text, isRule l = false ∧ closesFence l = false := by
  refine ⟨fun g source h => ?_, fun media ls h => ?_, fun _ _ _ => not_delimiter_of_render⟩
  · obtain ⟨text, p, htext, hp, hmetadata⟩ := split?_of_write h
    exact ⟨text, p, render_eq_ok htext, hp, hmetadata⟩
  · obtain ⟨text, htext, hdrafts⟩ := drafts_generated h
    exact ⟨text, render_eq_ok htext, hdrafts⟩

/-- A video whose prompt has the lines of a rule and of a fence. -/
def barredVideo : Generated :=
  .video "---\n```" (some "```")

/-- A story whose title and style are rules and fences. -/
def barredStory : Game :=
  { title := "---"
    description := some "a\n---\n```"
    making := { style := some (Mapping.ofList [("```\n---", "---")]) }
    scenes := Mapping.ofList [("s", { id := "s", nodes := [.generated barredVideo] })] }

/-- Rules and fences in a title, a style, a prompt and a key do not count. -/
theorem barredStory_framed :
    (∃ source text p, write barredStory = .ok source ∧
      Yaml.render [] (asEntries (metadataEntries barredStory)) = .ok (text ++ ['\n']) ∧
      split? source = some p ∧ p.metadata = String.ofList text) ∧
    (∃ ls text, nodeLines (.generated barredVideo) = .ok ls ∧
      drafts 1 (String.ofList (unlines ("# s".toList :: ls))) =
        { warnings := [], result := .ok [{ id := "s", line := 1, blocks :=
            [{ line := 2, form := .fence "video-gen" (String.ofList text) }] }] }) ∧
    ∃ text, Yaml.render [] [(.str "```\r---", .str "---")] = .ok text ∧
      ∀ l ∈ lines text, isRule l = false ∧ closesFence l = false := by
  have hdata : Data (.map [(.str "```\r---", .str "---")]) :=
    @data_asEntries [("```\r---", .str "---")] (by simp [Data.str])
  obtain ⟨hmetadata, hfence, hlines⟩ := written_data_framed
  obtain ⟨source, hsource⟩ := Except.exists_of_isOk (x := write barredStory) (by decide +kernel)
  obtain ⟨ls, hls⟩ := Except.exists_of_isOk (x := nodeLines (.generated barredVideo))
    (by decide +kernel)
  obtain ⟨entry, hentry⟩ := Except.exists_of_isOk
    (x := Yaml.render [] [(.str "```\r---", .str "---")]) (by decide +kernel)
  obtain ⟨text, p, htext, hp, hmeta⟩ := hmetadata _ _ hsource
  obtain ⟨body, -, hdrafts⟩ := hfence _ _ hls
  exact ⟨⟨source, text, p, hsource, htext, hp, hmeta⟩, ⟨ls, body, hls, hdrafts⟩, entry, hentry,
    hlines _ _ _ hdata hentry⟩

end Storyline.Script
