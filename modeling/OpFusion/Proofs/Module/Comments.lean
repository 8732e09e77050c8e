/-
  Comments end where they should.

  Text in a comment has no star before a slash (`Source.Unclosed`), whatever it was made from, and none comes
  about where it is joined with what stands around it. So the header ends with the first end of a comment in
  the module, and has a line for each signature and each list of requirements; and the comment over each
  global block is one line, with one end.
-/
import OpFusion.Proofs.Module.Blocks

namespace OpFusion

/-! ## Ends of comments -/

namespace Source

variable {c : Char} {cs ds : List Char}

/-- The end of a comment. -/
def closer : List Char := ['*', '/']

/-- No star stands before a slash. -/
def Unclosed (cs : List Char) : Prop := cs.IsChain fun c d => ¬ (c = '*' ∧ d = '/')

instance (cs : List Char) : Decidable (Unclosed cs) := inferInstanceAs (Decidable (List.IsChain _ _))

theorem unclosed_of_notMem (h : '*' ∉ cs) : Unclosed cs := by
  induction cs with
  | nil => exact .nil
  | cons c cs ih =>
    rw [List.mem_cons, not_or] at h
    exact (ih h.2).cons fun d _ hclose => h.1 hclose.1.symm

/-- Nothing comes about at a character that is neither a star nor a slash. -/
theorem Unclosed.append_cons (hcs : Unclosed cs) (hds : Unclosed ds) (hstar : c ≠ '*') (hslash : c ≠ '/') :
    Unclosed (cs ++ c :: ds) := by
  refine List.isChain_append.2 ⟨hcs, List.isChain_cons.2 ⟨fun d _ hclose => hstar hclose.1, hds⟩, ?_⟩
  intro x _ y hy hclose
  cases hy
  exact hslash hclose.2

theorem unclosed_flatMap {lines : List (List Char)} (h : ∀ line ∈ lines, Unclosed line) (hds : Unclosed ds) :
    Unclosed (lines.flatMap (· ++ ['\n']) ++ ds) := by
  induction lines with
  | nil => exact hds
  | cons line lines ih =>
    rw [List.forall_mem_cons] at h
    rw [List.flatMap_cons, List.append_assoc, List.append_assoc]
    exact h.1.append_cons (ih h.2) (by decide) (by decide)

theorem head?_splitClosers (cs : List Char) : (splitClosers cs).head? = cs.head? := by
  unfold splitClosers
  split <;> rfl

theorem unclosed_splitClosers (cs : List Char) : Unclosed (splitClosers cs) := by
  fun_induction splitClosers cs with
  | case1 => exact .nil
  | case2 cs ih =>
    have hstar : Unclosed ['*'] := .singleton '*'
    have hslash : Unclosed ('/' :: splitClosers cs) :=
      List.IsChain.cons ih fun _ _ hclose => absurd hclose.1 (by decide)
    exact hstar.append_cons hslash (by decide) (by decide)
  | case3 c cs hopen ih =>
    refine List.IsChain.cons ih fun d hd hclose => ?_
    rw [head?_splitClosers] at hd
    obtain ⟨rest, hrest⟩ := List.head?_eq_some_iff.1 hd
    exact hopen rest hclose.1 (hclose.2 ▸ hrest)

theorem unclosed_commentChars (cs : List Char) : Unclosed (commentChars cs) := by
  -- A blank in place of a line feed is neither a star nor a slash.
  have hstays : ∀ c d : Char, d ≠ ' ' → (if c = '\n' then ' ' else c) = d → c = d := by
    intro c d hd h
    split at h
    · exact absurd h.symm hd
    · exact h
  refine List.isChain_map_of_isChain _ (fun c d hcd hclose => hcd ⟨?_, ?_⟩) (unclosed_splitClosers cs)
  · exact hstays c '*' (by decide) hclose.1
  · exact hstays d '/' (by decide) hclose.2

theorem unclosed_commentText (s : String) : Unclosed (commentText s).toList := by
  rw [commentText, String.toList_ofList]
  exact unclosed_commentChars s.toList

/-- **The first end of a comment** comes after text in which there is none. -/
theorem length_le_of_closer {inside text before : List Char} (h : Unclosed (inside ++ ['*']))
    (htext : inside ++ closer <+: text) (hbefore : before ++ closer <+: text) :
    inside.length ≤ before.length := by
  by_contra hlt
  have hstar : inside ++ ['*'] <+: text :=
    ((List.prefix_append_right_inj inside).2 (by decide : ['*'] <+: closer)).trans htext
  have hearly : before ++ closer <+: inside ++ ['*'] := by
    refine List.prefix_of_prefix_length_le hbefore hstar ?_
    simp only [List.length_append, closer, List.length_cons, List.length_nil]
    omega
  obtain ⟨rest, hrest⟩ := hearly
  rw [← hrest, List.append_assoc] at h
  exact (List.isChain_append_cons_cons.1 h).2.1 ⟨rfl, rfl⟩

end Source

/-! ## The header -/

namespace Module

variable {inputs outputs : List Binding} {signatures : List Signature} {link : Link}

/-- Each list of requirements that is not empty has one line. -/
theorem linkLines_eq_map (l : Link) : linkLines l = (l.shown.filter (!·.2.isEmpty)).map fun e =>
    " * " ++ e.1 ++ ": " ++ Source.commentText (" ".intercalate e.2) := by
  rw [linkLines_eq]
  induction l.shown with
  | nil => rfl
  | cons e shown ih =>
    rw [List.flatMap_cons, ih, linkLine, List.filter_cons]
    cases e.2.isEmpty <;> rfl

theorem unclosed_starred {text : String} (h : Source.Unclosed text.toList) :
    Source.Unclosed (" * " ++ text).toList := by
  have hstar : Source.Unclosed [' ', '*'] := by decide
  rw [String.toList_append]
  exact hstar.append_cons h (by decide) (by decide)

theorem unclosed_headerLines {line : String} (h : line ∈ headerLines inputs outputs signatures link) :
    Source.Unclosed line.toList := by
  have hbindings : ∀ (label : String) (bs : List Binding), '*' ∉ label.toList →
      Source.Unclosed (" * " ++ (label ++ Signature.bindingsText bs ++ "]")).toList := by
    intro label bs hlabel
    have hbs := Signature.notMem_bindingsText bs (c := '*') (by decide) (by decide)
    exact unclosed_starred (Source.unclosed_of_notMem (by simp [hlabel, hbs]))
  simp only [headerLines, List.mem_append, List.mem_cons, List.not_mem_nil, or_false] at h
  rcases h with ((rfl | rfl | rfl | rfl) | h) | h
  · decide
  · decide
  · have hinputs := hbindings "inputs: [" inputs (by decide)
    rwa [← String.append_assoc, ← String.append_assoc] at hinputs
  · have houtputs := hbindings "outputs: [" outputs (by decide)
    rwa [← String.append_assoc, ← String.append_assoc] at houtputs
  · obtain ⟨s, -, rfl⟩ := List.mem_map.1 h
    exact unclosed_starred (Source.unclosed_commentText s.text)
  · obtain ⟨e, he, rfl⟩ := mem_linkLines h
    have hlabel : e.1 ∈ link.shown.map (·.1) := List.mem_map_of_mem he
    have hstar : ∀ label ∈ link.shown.map (·.1), '*' ∉ label.toList := by
      rw [labels_shown]
      decide
    have hbefore : Source.Unclosed (e.1.toList ++ [':']) :=
      Source.unclosed_of_notMem (by simp [hstar _ hlabel])
    have hlist : Source.Unclosed (e.1 ++ ": " ++ Source.commentText (" ".intercalate e.2)).toList := by
      rw [String.toList_append, String.toList_append, List.append_assoc]
      have htext := hbefore.append_cons (Source.unclosed_commentText (" ".intercalate e.2))
        (by decide : ' ' ≠ '*') (by decide)
      rwa [List.append_assoc] at htext
    have hline := unclosed_starred hlist
    rwa [← String.append_assoc, ← String.append_assoc] at hline

/-- The header up to its end. -/
def headerBody (inputs outputs : List Binding) (signatures : List Signature) (link : Link) : List Char :=
  ((headerLines inputs outputs signatures link).map String.toList).flatMap (· ++ ['\n']) ++ [' ']

theorem unclosed_headerBody (inputs outputs : List Binding) (signatures : List Signature) (link : Link) :
    Source.Unclosed (headerBody inputs outputs signatures link ++ ['*']) := by
  rw [headerBody, List.append_assoc]
  refine Source.unclosed_flatMap (fun line hline => ?_) (by decide)
  obtain ⟨line, hmem, rfl⟩ := List.mem_map.1 hline
  exact unclosed_headerLines hmem

theorem pieces_headerBody (inputs outputs : List Binding) (signatures : List Signature) (link : Link) :
    Text.pieces (· = '\n') (headerBody inputs outputs signatures link) =
      (headerLines inputs outputs signatures link ++ [" "]).map String.toList := by
  rw [List.map_append]
  refine Text.pieces_flatMap (fun line hline => ?_) (by decide)
  obtain ⟨line, hmem, rfl⟩ := List.mem_map.1 hline
  rcases mem_headerLines hmem with rfl | ⟨text, rfl, htext⟩
  · decide
  · simp [htext]

theorem exists_header_eq (inputs outputs : List Binding) (signatures : List Signature) (link : Link) :
    ∃ text, (header inputs outputs signatures link).render = .ok text ∧
      text.toList = headerBody inputs outputs signatures link ++ (Source.closer ++ ['\n', '\n']) := by
  rw [header_eq]
  refine ⟨_, rfl, ?_⟩
  have htext := toList_closed (headerLines inputs outputs signatures link) ""
  rw [String.append_empty] at htext
  rw [htext, headerBody, List.append_assoc]
  rfl

/-! ## Global code -/

/-- The comment over a block up to its end. -/
def blockCommentBody (id : String) : List Char := "/* ".toList ++ (Source.commentText id).toList ++ [' ']

theorem toList_blockComment (id : String) :
    (blockComment id).toList = blockCommentBody id ++ Source.closer := by
  simp [blockComment, blockCommentBody, Source.closer]

theorem newline_notMem_blockComment (id : String) : '\n' ∉ (blockComment id).toList := by
  have hnewline := Source.newline_notMem_commentText id
  simp [blockComment, hnewline]

theorem unclosed_blockCommentBody (id : String) : Source.Unclosed (blockCommentBody id ++ ['*']) := by
  have hopen : Source.Unclosed ['/', '*'] := by decide
  have htext : Source.Unclosed ("/* ".toList ++ (Source.commentText id).toList) :=
    hopen.append_cons (Source.unclosed_commentText id) (by decide) (by decide)
  rw [blockCommentBody, List.append_assoc]
  exact htext.append_cons (by decide) (by decide) (by decide)

/-- **The comment over a block has one end.** -/
theorem eq_blockCommentBody {id : String} {before : List Char}
    (h : before ++ Source.closer <+: (blockComment id).toList) : before = blockCommentBody id := by
  have hle := Source.length_le_of_closer (unclosed_blockCommentBody id)
    (toList_blockComment id ▸ List.prefix_refl _) h
  have hlength := h.length_le
  rw [toList_blockComment, List.length_append, List.length_append] at hlength
  rw [toList_blockComment] at h
  exact List.append_inj_left (h.eq_of_length_le (by rw [List.length_append, List.length_append]; omega))
    (by omega)

end Module

/-! ## Modules -/

namespace Assembly

variable {g : Graph} {m : Module}

theorem exists_source_eq_header (h : assemble g = .ok m) :
    ∃ text rest, (Module.header m.inputs m.outputs m.applications m.link).render = .ok text ∧
      m.source = text ++ rest ∧
      text.toList = Module.headerBody m.inputs m.outputs m.applications m.link ++
        (Source.closer ++ ['\n', '\n']) := by
  obtain ⟨rest, hsource⟩ := Module.exists_source_eq h
  obtain ⟨text, hrender, htext⟩ := Module.exists_header_eq m.inputs m.outputs m.applications m.link
  refine ⟨text, rest, hrender, ?_, htext⟩
  rw [Module.header_eq] at hrender
  cases hrender
  exact hsource

/-- What stands before the global code is whole lines. -/
theorem ended_opening (h : assemble g = .ok m) : Text.Ended m.parts.opening.toList := by
  obtain ⟨p, parts, -, hparts, rfl⟩ := assemble_eq_ok h
  obtain ⟨hopening, -⟩ := parts_eq_ok hparts
  refine (Piece.lines_renderAll hopening ?_).1
  have hincludes : (Module.includes p.link.headers).Ended := by
    intro text htext
    cases htext
    rw [String.toList_append]
    exact .inr ⟨_, rfl⟩
  simp only [List.forall_mem_cons, List.not_mem_nil, false_implies, implies_true, and_true]
  exact ⟨Piece.ended_lines _, hincludes, Piece.ended_lines _⟩

theorem ended_supportPieces (blocks : List SupportBlock) :
    ∀ p ∈ blocks.flatMap Module.supportPieces, p.Ended := by
  intro p hp
  obtain ⟨b, -, hp⟩ := List.mem_flatMap.1 hp
  simp only [Module.supportPieces, List.mem_cons, List.not_mem_nil, or_false] at hp
  rcases hp with rfl | rfl | rfl
  · exact Piece.ended_lines _
  · exact Piece.ended_block 0 b.code
  · exact Piece.ended_lines _

/-- The comment over a global block is a line after the blocks before it. -/
theorem exists_source_eq_block {blocks : List SupportBlock} (h : assemble g = .ok m)
    (hglobals : Piece.renderAll (blocks.flatMap Module.supportPieces) = .ok m.parts.globals) {i : Nat}
    {b : SupportBlock} (hb : blocks[i]? = some b) :
    ∃ done after, Piece.renderAll ((blocks.take i).flatMap Module.supportPieces) = .ok done ∧
      Text.Ended (m.parts.opening ++ done).toList ∧
      m.source = m.parts.opening ++ done ++ (Module.blockComment b.id ++ "\n" ++ after) := by
  have hsplit : blocks = blocks.take i ++ b :: blocks.drop (i + 1) := by
    obtain ⟨hlt, rfl⟩ := List.getElem?_eq_some_iff.1 hb
    rw [← List.drop_eq_getElem_cons hlt, List.take_append_drop]
  rw [hsplit, List.flatMap_append, List.flatMap_cons] at hglobals
  obtain ⟨done, block, hdone, hblock, htext⟩ := Piece.renderAll_append_eq_ok hglobals
  obtain ⟨comment, hcomment, hblock⟩ := Outcome.bind_eq_ok.1 hblock
  obtain ⟨after, -, hblock⟩ := Outcome.bind_eq_ok.1 hblock
  cases hblock
  have hline : comment = Module.blockComment b.id ++ "\n" := by
    cases hcomment
    simp [String.join]
  have hended := (Piece.lines_renderAll hdone (ended_supportPieces _)).1
  obtain ⟨p, parts, -, -, rfl⟩ := assemble_eq_ok h
  refine ⟨done, after ++ parts.entry ++ parts.init ++ parts.abi, hdone, ?_, ?_⟩
  · rw [String.toList_append]
    exact (ended_opening h).append hended
  · rw [Parts.text, htext, hline]
    simp only [String.append_assoc]

/-- **No text breaks out of a comment.** The first end of a comment in a module is the one that ends its
header. The header has four lines of its own, a line for each signature and a line for each list of
requirements that is not empty. The comment over each global block is a line of the module, and has its own
end only. -/
theorem comments_closed (h : assemble g = .ok m) :
    (∃ text rest inside,
      (Module.header m.inputs m.outputs m.applications m.link).render = .ok text ∧ m.source = text ++ rest ∧
      text.toList = inside ++ (Source.closer ++ ['\n', '\n']) ∧
      (∀ before, before ++ Source.closer <+: m.source.toList → inside.length ≤ before.length) ∧
      Text.pieces (· = '\n') inside =
        (["/* fusejit generated module",
          " * abi: " ++ toString Module.abiVersion,
          " * inputs: [" ++ Signature.bindingsText m.inputs ++ "]",
          " * outputs: [" ++ Signature.bindingsText m.outputs ++ "]"] ++
          (m.applications.map fun s => " * " ++ Source.commentText s.text) ++
          ((m.link.shown.filter (!·.2.isEmpty)).map fun e =>
            " * " ++ e.1 ++ ": " ++ Source.commentText (" ".intercalate e.2)) ++
          [" "]).map String.toList) ∧
    ∃ blocks, globalBlocks g = .ok blocks ∧ (∀ b, b ∈ blocks ↔ KindBlock g b ∨ AppBlock g b) ∧
      ∀ (i : Nat) (b : SupportBlock), blocks[i]? = some b → ∃ done after body,
        Piece.renderAll ((blocks.take i).flatMap Module.supportPieces) = .ok done ∧
        Text.Ended (m.parts.opening ++ done).toList ∧
        m.source = m.parts.opening ++ done ++ (Module.blockComment b.id ++ "\n" ++ after) ∧
        '\n' ∉ (Module.blockComment b.id).toList ∧
        (Module.blockComment b.id).toList = body ++ Source.closer ∧
        ∀ before, before ++ Source.closer <+: (Module.blockComment b.id).toList → before = body := by
  constructor
  · obtain ⟨text, rest, hrender, hsource, htext⟩ := exists_source_eq_header h
    refine ⟨text, rest, _, hrender, hsource, htext, fun before hbefore => ?_, ?_⟩
    · have hheader : Module.headerBody m.inputs m.outputs m.applications m.link ++ Source.closer <+:
          m.source.toList := by
        rw [hsource, String.toList_append, htext]
        simp only [List.append_assoc]
        exact ⟨_, List.append_assoc ..⟩
      exact Source.length_le_of_closer (Module.unclosed_headerBody ..) hheader hbefore
    · rw [Module.pieces_headerBody, Module.headerLines, Module.linkLines_eq_map]
  · obtain ⟨p, ofKinds, ofApps, hp, hblocks, hkinds, happs, hglobals⟩ := globals_eq h
    refine ⟨_, hblocks, fun b => ?_, fun i b hb => ?_⟩
    · rw [List.mem_append, hkinds.mem_iff, happs.mem_iff, mem_kindBlocks_iff hp, mem_appBlocks_iff hp]
    · obtain ⟨done, after, hdone, hended, hsource⟩ := exists_source_eq_block h hglobals hb
      exact ⟨done, after, Module.blockCommentBody b.id, hdone, hended, hsource,
        Module.newline_notMem_blockComment b.id, Module.toList_blockComment b.id,
        fun before hbefore => Module.eq_blockCommentBody hbefore⟩

/-- A kind whose texts would all end the comments they are shown in. -/
def breaking : Script where
  name := "*/\n"
  params := "*\n/ **/"
  kindBlocks := [{ constant "one" "1" with id := "*/\n/**/" }]
  extents := some [[]]
  body := .steps []
  link := { headers := ["<a*/b.h>", "*/"], compileFlags := ["-D*", "/\n"] }

theorem plain_breaking : breaking.Plain where
  kindBlocks := List.forall_mem_singleton.2
    ⟨rfl, plain_constant (Text.plain_ofList (by decide)) (Text.plain_ofList (by decide))⟩
  appBlocks := by simp [breaking]
  extents := by simp [breaking]
  body _ := Text.plain_ofList (by decide)
  initCode := by simp [breaking]

/-- A header of four lines, one signature and two lists of requirements, and a block, all of whose texts
have ends of comments and line feeds in them. -/
theorem comments_closed_breaking : ∃ m text rest inside, assemble breaking.alone = .ok m ∧
    m.source = text ++ rest ∧ text.toList = inside ++ (Source.closer ++ ['\n', '\n']) ∧
    (∀ before, before ++ Source.closer <+: m.source.toList → inside.length ≤ before.length) ∧
    (Text.pieces (· = '\n') inside).length = 8 ∧
    ∃ before after, m.source = before ++ ("/* * / /** / */\n" ++ after) := by
  obtain ⟨m, hm⟩ := plain_breaking.assemble_alone (by decide +kernel)
  have hshown : m.applications.length + (m.link.shown.filter (!·.2.isEmpty)).length = 3 := by
    obtain ⟨p, parts, hp, -, rfl⟩ := assemble_eq_ok hm
    have hcount : (collect breaking.alone).map (fun p =>
        p.signatures.length + (p.link.shown.filter (!·.2.isEmpty)).length) = .ok 3 := by rfl
    rw [hp] at hcount
    exact Except.ok.inj hcount
  have hids : globalBlocks breaking.alone = .ok breaking.kindBlocks := by rfl
  obtain ⟨⟨text, rest, inside, -, hsource, htext, hfirst, hpieces⟩, blocks, hblocks, -, hblock⟩ :=
    comments_closed hm
  obtain rfl : blocks = _ := Except.ok.inj (hblocks.symm.trans hids)
  obtain ⟨done, after, body, -, -, hcomment, -⟩ := hblock 0 _ rfl
  refine ⟨m, text, rest, inside, hm, hsource, htext, hfirst, ?_, m.parts.opening ++ done, after, hcomment⟩
  rw [hpieces]
  simp only [List.length_map, List.length_append, List.length_cons, List.length_nil]
  omega

end Assembly

end OpFusion
