import Storyline.Proofs.Script.Canonical.Choice

/-!
# Nodes on a single line

A choice and a static image, sound or video take one line of a script. The line that is written for
such a node says the same again: wherever it stands outside fences it is one block, the block gives
the same node, and nothing on it is left out. The clauses of a choice may stand in any order.

## Main definitions

* `Form.isSingle`: choices and static media
* `Spells`: a line that says what a node is
* `Stands`: a line that is one block of a form, with nothing left over
* `ReadsAs`: a line that is one block and gives a node

## Main results

* `exists_line_of_mem_blocks`: the line that a block on a single line comes from
* `stands_of_lineForm?`: a trimmed line of a single form is one block
* `reads_single`: the node of such a line is read back from every line that spells it
* `single_lines_read_back`: the same for the blocks and scenes of a script
-/

namespace Storyline.Script

open Text

/-- Whether a form is a choice, or a static image, sound or video. -/
def Form.isSingle : Form → Bool
  | .choice .. | .image .. | .audio _ | .video _ => true
  | _ => false

/-- Whether a line is the one that is written for a node, or for a choice the same with its clauses
in another order. -/
def Spells (node : Node Generated) (l : List Char) : Prop :=
  nodeLines node = .ok [l] ∨
    ∃ c order, node = .choice c ∧ order.Perm c.clauses ∧ l = c.lineIn order

/-- Whether a line, if it stands in a scene and outside fences, is one block of a form, with nothing
left over. -/
def Stands (l : List Char) (f : Form) : Prop :=
  '\n' ∉ l ∧ ∀ n rest, pieces n (l :: rest) = (n, .form f "") :: pieces (n + 1) rest

/-! ## Blocks come from lines -/

/-- A block on a single line comes from a line of the script. -/
theorem exists_line_of_mem_blocks {n : Nat} {body : String} {ds : List Draft} {d : Draft}
    {b : Block} (h : (drafts n body).result = .ok ds) (hd : d ∈ ds) (hb : b ∈ d.blocks)
    (hsingle : b.form.isSingle = true) :
    ∃ l ∈ lines body.toList, ∃ leftover, lineForm? (trim l) = some (b.form, leftover) := by
  obtain ⟨preamble, rest, spans, hls, -, hlaid, hspans⟩ :=
    laid_of_draftsOfLines (fun l hl => not_mem_of_mem_lines hl) h
  have hitem : (b.line, Item.block b.form) ∈ spans.map Span.entry := by
    rw [hspans]
    exact List.mem_flatMap.2 ⟨d, hd, List.mem_cons_of_mem _ (List.mem_map.2 ⟨b, hb, rfl⟩)⟩
  obtain ⟨s, hs, he⟩ := List.mem_map.1 hitem
  obtain ⟨hstands, before, after, hrest, -⟩ := hlaid.mem s hs
  have hentry : s.item = .block b.form := congrArg Prod.snd he
  rw [hentry] at hstands
  have hline : ∃ l leftover, s.lines = [l] ∧ lineForm? (trim l) = some (b.form, leftover) := by
    cases hform : b.form <;> rw [hform] at hstands hsingle
    all_goals first | exact hstands | cases hsingle
  obtain ⟨l, leftover, hl, hform⟩ := hline
  refine ⟨l, ?_, leftover, hform⟩
  rw [hls, hrest, hl]
  simp

/-! ## Lines of static media -/

section

variable {l s : List Char} {f : Form} {url : String}

theorem address?_eq_some (h : address? s = some url) : s = '(' :: (url.toList ++ [')']) := by
  obtain ⟨r, hr, h⟩ := Option.bind_eq_some_iff.1 h
  dsimp only at h
  split at h
  · cases h
  · split at h
    · next hend =>
      cases h
      rw [eq_append_of_after? hr, String.toList_ofList, ← hend, List.takeWhile_append_dropWhile]
      rfl
    · cases h

/-- The line of an image is the one that is written for it. -/
theorem eq_of_image? {alt : String} (h : image? l = some (.image url alt)) :
    l = s!"![{alt}]({url})".toList := by
  obtain ⟨r, address, hr, haddress, he⟩ := image?_eq_some h
  cases he
  obtain ⟨t, ht, haddress⟩ := Option.bind_eq_some_iff.1 haddress
  have hcut : r.takeWhile (· != ']') ++ ']' :: '(' :: (url.toList ++ [')']) = r := by
    have hbehind := eq_append_of_after? ht
    rw [address?_eq_some haddress] at hbehind
    have hr := List.prefix_iff_eq_append.1 (List.takeWhile_prefix (l := r) (· != ']'))
    rwa [hbehind] at hr
  rw [eq_append_of_after? hr]
  conv => lhs; rw [← hcut]
  show _ = ("![" ++ String.ofList (r.takeWhile (· != ']')) ++ "](" ++ url ++ ")").toList
  simp only [String.toList_append, String.toList_ofList, List.append_assoc]
  rfl

theorem eq_of_audio? (h : audio? l = some (.audio url)) : l = s!"[audio]({url})".toList := by
  obtain ⟨r, address, hr, haddress, he⟩ := audio?_eq_some h
  cases he
  rw [eq_append_of_after? hr, address?_eq_some haddress]
  show _ = ("[audio](" ++ url ++ ")").toList
  rw [String.toList_append, String.toList_append, List.append_assoc]
  rfl

theorem eq_of_video? (h : video? l = some (.video url)) : l = s!"[video]({url})".toList := by
  obtain ⟨r, address, hr, haddress, he⟩ := video?_eq_some h
  cases he
  rw [eq_append_of_after? hr, address?_eq_some haddress]
  show _ = ("[video](" ++ url ++ ")").toList
  rw [String.toList_append, String.toList_append, List.append_assoc]
  rfl

/-! ## Lines that are one block -/

/-- How the lines of single forms begin. -/
theorem exists_mark {leftover : String} (h : lineForm? l = some (f, leftover))
    (hsingle : f.isSingle = true) : ∃ c ∈ ['*', '!', '['], ∃ r, l = c :: r := by
  rcases lineForm?_cases h with h | ⟨-, h | h | h | h⟩
  · obtain ⟨_, _, _, rfl, -⟩ := choice?_eq_some h
    exact ⟨'*', by simp, _, rfl⟩
  · obtain ⟨_, _, hr, -⟩ := image?_eq_some h
    exact ⟨'!', by simp, _, eq_append_of_after? hr⟩
  · obtain ⟨_, _, hr, -⟩ := audio?_eq_some h
    exact ⟨'[', by simp, _, eq_append_of_after? hr⟩
  · obtain ⟨_, _, hr, -⟩ := video?_eq_some h
    exact ⟨'[', by simp, _, eq_append_of_after? hr⟩
  · obtain ⟨_, _, _, -, -, -, -, -, rfl⟩ := narration?_eq_some h
    cases hsingle

/-- A trimmed line of a single form is neither a header nor opens a fence, so it is one block. -/
theorem stands_of_lineForm? (hbreak : '\n' ∉ l) (htrim : trim l = l)
    (h : lineForm? l = some (f, "")) (hsingle : f.isSingle = true) : Stands l f := by
  obtain ⟨c, hc, r, rfl⟩ := exists_mark h hsingle
  have hplain : header? (c :: r) = none ∧ after? fenceMark (c :: r) = none := by
    simp only [List.mem_cons, List.not_mem_nil, or_false] at hc
    rcases hc with rfl | rfl | rfl <;> exact ⟨rfl, rfl⟩
  have hfence : fenceInfo? (c :: r) = none := by
    rw [fenceInfo?, htrim, hplain.2]
    rfl
  refine ⟨hbreak, fun n rest => ?_⟩
  rw [pieces_line hplain.1 hfence, linePiece, htrim, h]

end

/-! ## Nodes of single lines -/

/-- Whether a line is read as a node: it is one block on a single line, with nothing left over, and
the block gives the node. -/
def ReadsAs (node : Node Generated) (l : List Char) : Prop :=
  ∃ f, f.isSingle = true ∧ Stands l f ∧ ∀ place k, blockNode place ⟨k, f⟩ = .ok node

section

variable {node : Node Generated} {c : Choice} {order : List (String × Option String)}

theorem nodeLines_shown (url alt : String) :
    nodeLines (.image url (if alt.isEmpty then none else some alt)) =
      .ok [s!"![{alt}]({url})".toList] := by
  have halt : (if alt.isEmpty then none else some alt).getD "" = alt := by
    split
    · next hempty => exact (String.isEmpty_iff.1 hempty).symm
    · rfl
  rw [nodeLines, halt]

/-- A line that spells a choice has its clauses in some order. -/
theorem exists_order_of_spells {l : List Char} (h : Spells (.choice c) l) :
    ∃ order, order.Perm c.clauses ∧ l = c.lineIn order := by
  rcases h with h | ⟨d, order, hd, horder, rfl⟩
  · have hl : [(choiceLine c).toList] = [l] := Except.ok.inj h
    exact ⟨c.clauses, .refl _, by rw [← Choice.toList_choiceLine, (List.cons.inj hl).1]⟩
  · cases hd
    exact ⟨order, horder, rfl⟩

/-- The line of a choice is read as the choice, in whatever order its clauses stand. -/
theorem readsAs_lineIn (h : c.Writable) (horder : order.Perm c.clauses) :
    ReadsAs (.choice c) (c.lineIn order) := by
  have hform : lineForm? (c.lineIn order) =
      some (.choice c.text c.target (Mapping.ofList (heldClauses order)), "") := by
    rw [lineForm?, choice?_lineIn h horder]
    rfl
  have hclause {name : String} {o : Option String} (hmem : (name, o) ∈ c.clauses) :=
    clause_lineIn h horder hmem
  refine ⟨_, rfl, stands_of_lineForm? (unbroken_lineIn h horder) (trim_lineIn h horder) hform rfl,
    fun place k => ?_⟩
  rw [blockNode]
  dsimp only
  rw [hclause (o := c.condition) (by simp [Choice.clauses]),
    hclause (o := c.assignment) (by simp [Choice.clauses]),
    hclause (o := c.audio) (by simp [Choice.clauses]), trimmed, h.text, String.ofList_toList]

/-- The node of a single line is read back from every line that spells it. -/
theorem reads_single {l : List Char} {f : Form} {leftover : String} (hbreak : '\n' ∉ l)
    (htrim : trim l = l) (h : lineForm? l = some (f, leftover)) (hsingle : f.isSingle = true) :
    ∃ node w, (∀ place k, blockNode place ⟨k, f⟩ = .ok node) ∧ nodeLines node = .ok [w] ∧
      ∀ l', Spells node l' → ReadsAs node l' := by
  -- For media the written line is the line itself.
  have hmedia {node : Node Generated} (hnode : ∀ place k, blockNode place ⟨k, f⟩ = .ok node)
      (hchoice : ∀ c, node ≠ .choice c) (hwritten : nodeLines node = .ok [l])
      (hleft : leftover = "") : ∃ node w, (∀ place k, blockNode place ⟨k, f⟩ = .ok node) ∧
        nodeLines node = .ok [w] ∧ ∀ l', Spells node l' → ReadsAs node l' := by
    refine ⟨node, l, hnode, hwritten, ?_⟩
    rintro l' (hl' | ⟨c, -, rfl, -⟩)
    · rw [hwritten] at hl'
      cases hl'
      exact ⟨f, hsingle, stands_of_lineForm? hbreak htrim (hleft ▸ h) hsingle, hnode⟩
    · exact absurd rfl (hchoice c)
  rcases lineForm?_cases h with hline | ⟨hleft, hline | hline | hline | hline⟩
  · obtain ⟨_, _, q, -, -, -, he⟩ := choice?_eq_some hline
    cases he
    refine ⟨_, _, fun _ _ => rfl, rfl, ?_⟩
    intro l' hl'
    obtain ⟨order, horder, rfl⟩ := exists_order_of_spells hl'
    exact readsAs_lineIn (writable_of_choice? hbreak hline) horder
  · obtain ⟨_, url, -, -, rfl⟩ := image?_eq_some hline
    refine hmedia (fun _ _ => rfl) nofun ?_ hleft
    rw [nodeLines_shown, ← eq_of_image? hline]
  · obtain ⟨_, url, -, -, rfl⟩ := audio?_eq_some hline
    refine hmedia (fun _ _ => rfl) nofun ?_ hleft
    rw [eq_of_audio? hline]
    rfl
  · obtain ⟨_, url, -, -, rfl⟩ := video?_eq_some hline
    refine hmedia (fun _ _ => rfl) nofun ?_ hleft
    rw [eq_of_video? hline]
    rfl
  · obtain ⟨_, _, _, -, -, -, -, -, rfl⟩ := narration?_eq_some hline
    cases hsingle

/-! ## Scenes -/

/-- The node of a block on a single line is in the scene that the block is in. -/
theorem mem_nodes {id : String} {index : Nat} {narration : Option String} {bs : List Block}
    {ns : List (Node Generated)} (h : (nodes id index narration bs).result = .ok ns) {b : Block}
    (hb : b ∈ bs) (hsingle : b.form.isSingle = true)
    (hnode : ∀ place, blockNode place b = .ok node) : node ∈ ns := by
  induction bs generalizing index narration ns with
  | nil => cases hb
  | cons a bs ih =>
    rcases a.cases_narration with ⟨url, hform, -⟩ | ⟨hnone, ⟨content, hform⟩ | htext⟩
    · rw [result_nodes_narration hform] at h
      rcases List.mem_cons.1 hb with rfl | hb
      · rw [hform] at hsingle
        cases hsingle
      · exact ih h hb
    · rw [result_nodes_text hform] at h
      obtain ⟨rest, hrest, rfl⟩ := Except.map_eq_ok_iff.1 h
      rcases List.mem_cons.1 hb with rfl | hb
      · rw [hform] at hsingle
        cases hsingle
      · exact List.mem_cons_of_mem _ (ih hrest hb)
    · rw [result_nodes_other hnone htext] at h
      obtain ⟨n, hn, h⟩ := Except.bind_eq_ok_iff.1 h
      obtain ⟨rest, hrest, rfl⟩ := Except.map_eq_ok_iff.1 h
      rcases List.mem_cons.1 hb with rfl | hb
      · exact List.mem_cons.2 (.inl (Except.ok.inj ((hnode _).symm.trans hn)))
      · exact List.mem_cons_of_mem _ (ih hrest hb)

/-- A scene with one line is read as this line is. -/
theorem drafts_line {id : String} (hid : IsName id) {l : List Char} {f : Form} (h : Stands l f)
    (k : Nat) : drafts k (String.ofList (unlines [s!"# {id}".toList, l])) =
      ⟨[], .ok [⟨id, k, [⟨k + 1, f⟩]⟩]⟩ := by
  have hbreak : ∀ m ∈ [s!"# {id}".toList, l], '\n' ∉ m :=
    List.forall_mem_cons.2 ⟨unbroken_headerLine hid, List.forall_mem_singleton.2 h.1⟩
  have hpieces : pieces (k + 1) [l] = [(k + 1, .form f "")] := by rw [h.2, pieces_nil]
  rw [drafts, String.toList_ofList, lines_unlines (List.cons_ne_nil _ _) hbreak,
    draftsOfLines_header (header?_name hid) (by rw [hpieces]; rfl), hpieces]
  rfl

theorem scene_line {f : Form} (hsingle : f.isSingle = true)
    (hnode : ∀ place k, blockNode place ⟨k, f⟩ = .ok node) (id : String) (k : Nat) :
    scene ⟨id, k, [⟨k + 1, f⟩]⟩ = pure { id := id, nodes := [node] } := by
  rw [scene, nodes]
  split
  · next hform =>
    cases hform
    cases hsingle
  · next hform =>
    cases hform
    cases hsingle
  · rw [hnode]
    rfl

/-- **A node on a single line is read back from the line that is written for it**, and a choice
also if its clauses are written in another order: the line is again one block of a single line, the
block gives the same node in every scene, and nothing on the line is left out. -/
theorem single_lines_read_back {n : Nat} {body : String} {ds : List Draft} {d : Draft} {b : Block}
    (h : (drafts n body).result = .ok ds) (hd : d ∈ ds) (hb : b ∈ d.blocks)
    (hsingle : b.form.isSingle = true) :
    ∃ node w, (∀ place, blockNode place b = .ok node) ∧
      (∀ s, (scene d).result = .ok s → node ∈ s.nodes) ∧ nodeLines node = .ok [w] ∧
      ∀ l, Spells node l → ∃ f, f.isSingle = true ∧ Stands l f ∧
        (∀ place k, blockNode place ⟨k, f⟩ = .ok node) ∧ ∀ id, IsName id → ∀ k,
          drafts k (String.ofList (unlines [s!"# {id}".toList, l])) =
              ⟨[], .ok [⟨id, k, [⟨k + 1, f⟩]⟩]⟩ ∧
            scene ⟨id, k, [⟨k + 1, f⟩]⟩ = pure { id := id, nodes := [node] } := by
  obtain ⟨line, hline, leftover, hform⟩ := exists_line_of_mem_blocks h hd hb hsingle
  have hbreak : '\n' ∉ trim line := fun hmem =>
    not_mem_of_mem_lines hline (mem_of_mem_trim hmem)
  obtain ⟨node, w, hnode, hwritten, hreads⟩ :=
    reads_single hbreak (trim_trim line) hform hsingle
  refine ⟨node, w, fun place => hnode place b.line, fun s hs => ?_, hwritten, fun l hl => ?_⟩
  · rw [scene, Logged.result_bind] at hs
    obtain ⟨ns, hns, hs⟩ := Except.bind_eq_ok_iff.1 hs
    cases hs
    exact mem_nodes hns hb hsingle fun place => hnode place b.line
  · obtain ⟨f, hf, hstands, hblock⟩ := hreads l hl
    exact ⟨f, hf, hstands, hblock, fun id hid k =>
      ⟨drafts_line hid hstands k, scene_line hf hblock id k⟩⟩

/-- A choice whose text has brackets and an arrow, with text behind it, nested parentheses, a clause
that says nothing and two of one name. -/
def haggleBody : String :=
  "intro\n# inn\n Welcome\n  * [ Ask [twice] > or -> ]not ] ->bar (set: n = f(\")\")) now " ++
    "(if: a)(if: (b) ) (audio: )"

/-- The same choice as a node. -/
def haggle : Choice where
  text := "Ask [twice] > or -> ]not"
  target := "bar"
  condition := some "(b)"
  assignment := some "n = f(\")\")"

/-- The block of the choice. -/
def haggleBlock : Block where
  line := 7
  form := .choice " Ask [twice] > or -> ]not " "bar"
    (Mapping.ofList [("set", "n = f(\")\")"), ("if", "(b)"), ("audio", "")])

theorem haggle_reads_back :
    (drafts 4 haggleBody).result = .ok [⟨"inn", 5, [⟨6, .text "Welcome"⟩, haggleBlock]⟩] ∧
      blockNode {} haggleBlock = .ok (.choice haggle) ∧
      ∃ f, f.isSingle = true ∧
        Stands "* [Ask [twice] > or -> ]not] -> bar (set: n = f(\")\")) (if: (b))".toList f ∧
        ∀ place k, blockNode place ⟨k, f⟩ = .ok (.choice haggle) := by
  have hdrafts : (drafts 4 haggleBody).result =
      .ok [⟨"inn", 5, [⟨6, .text "Welcome"⟩, haggleBlock]⟩] := by decide +kernel
  have hblock : blockNode {} haggleBlock = .ok (.choice haggle) := by cbv
  obtain ⟨node, w, hnode, -, -, hreads⟩ := single_lines_read_back hdrafts
    List.mem_cons_self (List.mem_cons_of_mem _ List.mem_cons_self) (by decide)
  obtain rfl : .choice haggle = node := Except.ok.inj (hblock.symm.trans (hnode {}))
  have horder : [("set", haggle.assignment), ("audio", none), ("if", haggle.condition)].Perm
      haggle.clauses := by decide +kernel
  obtain ⟨f, hsingle, hstands, hread, -⟩ := hreads _ (.inr ⟨haggle, _, rfl, horder, rfl⟩)
  exact ⟨hdrafts, hblock, f, hsingle, hstands, hread⟩

end

end Storyline.Script
