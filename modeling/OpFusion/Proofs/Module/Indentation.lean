/-
  What becomes of the lines of a block.

  The lines of a block between a blank first one and a blank last one are kept (`Text.Inner`), and each of them
  becomes one line: a blank line becomes empty, and any other line keeps its code behind the padding of the level
  (`Text.Carried`). Only a blank line can stop this, if the margin ends inside one of its characters
  (`Text.placeLine?_eq_none_iff`). So a block that is written behind other pieces adds these lines to their text, or
  stops everything (`Piece.block_carried`).

  Lines that all are indented lose their common indentation, and nothing else in front. If one of them is not
  indented, however, all lines lose their indentation (`Text.Becomes.indentOf_eq`), so that the steps between them stay
  the same only if all lines are indented or none is (`Text.sameSteps_iff`).
-/
import OpFusion.Proofs.Module.Globals
import OpFusion.Proofs.Text.Blocks

namespace OpFusion

namespace Text

variable {cs ds line out block : List Char} {lines kept placed : List (List Char)} {level m : Nat}

/-! ## White space at the ends -/

theorem trimStart_append (h : ∀ c ∈ cs, isBlank c = true) (ds : List Char) :
    trimStart (cs ++ ds) = trimStart ds :=
  List.dropWhile_append_of_pos h

theorem trimEnd_append (cs : List Char) (h : ∀ d ∈ ds, isBlank d = true) : trimEnd (cs ++ ds) = trimEnd cs := by
  rw [trimEnd, List.reverse_append, List.dropWhile_append_of_pos (by simpa using h), trimEnd]

theorem exists_eq_trimEnd_append (cs : List Char) :
    ∃ blanks, cs = trimEnd cs ++ blanks ∧ ∀ c ∈ blanks, isBlank c = true := by
  refine ⟨(cs.reverse.takeWhile isBlank).reverse, ?_, fun c hc => ?_⟩
  · rw [trimEnd, ← List.reverse_append, List.takeWhile_append_dropWhile, List.reverse_reverse]
  · exact List.mem_takeWhile_imp (List.mem_reverse.1 hc)

theorem trim_append (cs : List Char) (h : ∀ d ∈ ds, isBlank d = true) : trim (cs ++ ds) = trim cs := by
  rw [trim, trimStart, List.dropWhile_append]
  split
  · next hempty =>
    rw [trim, trimStart, List.isEmpty_iff.1 hempty, List.dropWhile_eq_nil_iff.2 h]
  · exact trimEnd_append _ h

theorem trim_trimEnd (cs : List Char) : trim (trimEnd cs) = trim cs := by
  obtain ⟨blanks, hcs, hblanks⟩ := exists_eq_trimEnd_append cs
  rw [← trim_append _ hblanks, ← hcs]

theorem allBlank_of_suffix (h : ds <:+ cs) (hcs : allBlank cs = true) : allBlank ds = true :=
  List.all_eq_true.2 fun c hc => List.all_eq_true.1 hcs c (h.subset hc)

/-! ## The lines that are kept -/

/-- The lines between a blank first line and a blank last line, if there are such lines. -/
def Inner (lines kept : List (List Char)) : Prop :=
  ∃ first last : Option (List Char), lines = first.toList ++ kept ++ last.toList ∧
    (∀ line ∈ first, allBlank line = true) ∧ (∀ line ∈ last, allBlank line = true) ∧
    (first = none → ∀ line ∈ lines.head?, allBlank line = false) ∧
    (last = none → ∀ line ∈ kept.getLast?, allBlank line = false)

theorem exists_eq_dropBlankHead (lines : List (List Char)) :
    ∃ first : Option (List Char), lines = first.toList ++ dropBlankHead lines ∧
      (∀ line ∈ first, allBlank line = true) ∧ (first = none → ∀ line ∈ lines.head?, allBlank line = false) := by
  cases lines with
  | nil => exact ⟨none, by simp [dropBlankHead]⟩
  | cons line rest =>
    rw [dropBlankHead]
    split
    · next hblank => exact ⟨some line, by simp [hblank]⟩
    · next hblank => exact ⟨none, by simpa using hblank⟩

theorem exists_eq_dropBlankLast (lines : List (List Char)) :
    ∃ last : Option (List Char), lines = dropBlankLast lines ++ last.toList ∧ (∀ line ∈ last, allBlank line = true) ∧
      (last = none → ∀ line ∈ (dropBlankLast lines).getLast?, allBlank line = false) := by
  rw [dropBlankLast]
  split
  · next hlast =>
    obtain ⟨line, hline, hblank⟩ := (Option.any_eq_true _ _).1 hlast
    refine ⟨some line, ?_, by simpa using hblank, by simp⟩
    rw [Option.toList_some, List.dropLast_append_getLast? line hline]
  · next hlast =>
    refine ⟨none, by simp, by simp, fun _ line hline => ?_⟩
    rw [Option.mem_def.1 hline] at hlast
    simpa using hlast

theorem inner_blockLines (block : List Char) : Inner (pieces (· = '\n') block) (blockLines block) := by
  obtain ⟨first, hfirst, hfirstBlank, hnoFirst⟩ := exists_eq_dropBlankHead (pieces (· = '\n') block)
  obtain ⟨last, hlast, hlastBlank, hnoLast⟩ := exists_eq_dropBlankLast (dropBlankHead (pieces (· = '\n') block))
  refine ⟨first, last, ?_, hfirstBlank, hlastBlank, hnoFirst, hnoLast⟩
  rw [blockLines, List.append_assoc, ← hlast, ← hfirst]

/-! ## Where a block cannot be moved -/

theorem byteLength_cons (c : Char) (cs : List Char) : byteLength (c :: cs) = c.utf8Size + byteLength cs := rfl

/-- There is no text after so many bytes if no character ends there. -/
theorem dropBytes?_eq_none_iff {n : Nat} :
    dropBytes? n cs = none ↔ ∀ start, start <+: cs → byteLength start ≠ n := by
  fun_induction dropBytes? n cs with
  | case1 cs =>
    constructor
    · intro h
      cases h
    · exact fun h => absurd rfl (h [] List.nil_prefix)
  | case2 n => simp [byteLength]
  | case3 n c cs hle ih =>
    rw [ih]
    constructor
    · intro h start hstart
      rcases List.prefix_cons_iff.1 hstart with rfl | ⟨rest, rfl, hrest⟩
      · simp [byteLength]
      · have hne := h rest hrest
        rw [byteLength_cons]
        omega
    · intro h start hstart
      have hne := h (c :: start) (by simpa using hstart)
      rw [byteLength_cons] at hne
      omega
  | case4 n c cs hgt =>
    refine ⟨fun _ start hstart => ?_, fun _ => rfl⟩
    rcases List.prefix_cons_iff.1 hstart with rfl | ⟨rest, rfl, -⟩
    · simp [byteLength]
    · rw [byteLength_cons]
      omega

/-- **A line cannot be moved if the margin ends inside one of its characters.** -/
theorem placeLine?_eq_none_iff :
    placeLine? level m line = none ↔ m ≤ byteLength line ∧ ∀ start, start <+: line → byteLength start ≠ m := by
  rw [placeLine?, Option.map_eq_none_iff, withoutMargin?]
  by_cases hm : 0 < m ∧ m ≤ byteLength line
  · rw [if_pos hm, dropBytes?_eq_none_iff]
    exact ⟨fun h => ⟨hm.2, h⟩, fun h => h.2⟩
  · rw [if_neg hm]
    constructor
    · intro h
      cases h
    · rintro ⟨hle, h⟩
      have hzero : m = 0 := by omega
      exact absurd hzero.symm (h [] List.nil_prefix)

/-! ## What a line becomes -/

/-- What a line becomes at a level: a blank line becomes empty, and any other line has its code behind the blanks of the
level, with no white space after it. -/
structure Carried (level : Nat) (line out : List Char) : Prop where
  oneLine : '\n' ∉ out
  blank : allBlank line = true → out = []
  code : allBlank line = false → ∃ body, out = List.replicate (2 * level) ' ' ++ body ∧ trim body = trim line ∧
    ∀ c ∈ body.getLast?, isBlank c = false

/-- A line becomes another one, which has its end. -/
def Becomes (level m : Nat) (line out : List Char) : Prop := placeLine? level m line = some (out ++ ['\n'])

theorem Becomes.carried (h : Becomes level m line out) (hfeed : '\n' ∉ line)
    (hm : allBlank line = false → m ≤ indentOf line) : Carried level line out := by
  refine ⟨fun hmem => ?_, fun hblank => ?_, fun hblank => ?_⟩
  · obtain ⟨text, htext, -, hplaced⟩ := placeLine?_eq_some h
    rw [List.append_cancel_right htext] at hmem
    exact (hplaced.mem hmem).elim (by decide) hfeed
  · obtain ⟨body, hbody, hout⟩ := Option.map_eq_some_iff.1 h
    rw [if_pos (allBlank_of_suffix (withoutMargin?_suffix hbody) hblank)] at hout
    exact (List.append_cancel_right hout : [] = out).symm
  · obtain ⟨gone, body, rfl, hgone, hplaced⟩ := placeLine?_eq level (hm hblank) hblank
    rw [Becomes, hplaced, Option.some.injEq] at h
    refine ⟨trimEnd body, (List.append_cancel_right h).symm, ?_, fun c hc => ?_⟩
    · rw [trim_trimEnd, trim, trim, trimStart_append hgone]
    · cases hcBlank : isBlank c with
      | false => rfl
      | true => exact absurd hc (getLast?_trimEnd_ne body hcBlank)

/-! ## What a block becomes -/

theorem exists_forall₂_placed {outs : List (List Char)} (h : kept.mapM (placeLine? level m) = some outs) :
    ∃ placed, outs.flatten = placed.flatMap (· ++ ['\n']) ∧ List.Forall₂ (Becomes level m) kept placed := by
  induction kept generalizing outs with
  | nil =>
    cases h
    exact ⟨[], rfl, .nil⟩
  | cons line kept ih =>
    rw [List.mapM_cons] at h
    obtain ⟨out, hout, h⟩ := Option.bind_eq_some_iff.1 h
    obtain ⟨outs, houts, h⟩ := Option.bind_eq_some_iff.1 h
    cases h
    obtain ⟨placed, hflatten, hplaced⟩ := ih houts
    obtain ⟨text, rfl, -⟩ := placeLine?_eq_some hout
    exact ⟨text :: placed, by rw [List.flatten_cons, hflatten, List.flatMap_cons], .cons hout hplaced⟩

/-- An empty block has no lines. -/
theorem reindent?_eq (level : Nat) (block : List Char) : reindent? level block =
    ((blockLines block).mapM (placeLine? level (margin (blockLines block)))).map List.flatten := by
  rw [reindent?]
  split
  · next hempty =>
    subst hempty
    rfl
  · rfl

/-- **Only a blank line can stop a block from being moved.** -/
theorem reindent?_eq_none_iff (level : Nat) (block : List Char) : reindent? level block = none ↔
    ∃ line ∈ blockLines block, allBlank line = true ∧ margin (blockLines block) ≤ byteLength line ∧
      ∀ start, start <+: line → byteLength start ≠ margin (blockLines block) := by
  rw [reindent?_eq, Option.map_eq_none_iff, Outcome.mapM_eq_none_iff]
  refine exists_congr fun line => and_congr_right fun hline => ?_
  rw [placeLine?_eq_none_iff, iff_and_self]
  intro hnone
  cases hblank : allBlank line with
  | true => rfl
  | false =>
    obtain ⟨gone, body, -, -, hplaced⟩ := placeLine?_eq level (margin_le_indentOf hline hblank) hblank
    rw [placeLine?_eq_none_iff.2 hnone] at hplaced
    cases hplaced

theorem exists_placed {text : List Char} (h : reindent? level block = some text) :
    ∃ placed, text = placed.flatMap (· ++ ['\n']) ∧
      List.Forall₂ (Becomes level (margin (blockLines block))) (blockLines block) placed := by
  rw [reindent?_eq] at h
  obtain ⟨outs, houts, rfl⟩ := Option.map_eq_some_iff.1 h
  exact exists_forall₂_placed houts

/-! ## Steps of indentation -/

/-- Lines have the same steps of indentation as what they become, blank lines apart. -/
def SameSteps (lines placed : List (List Char)) : Prop :=
  ∀ x ∈ lines.zip placed, ∀ y ∈ lines.zip placed, allBlank x.1 = false → allBlank y.1 = false →
    (indentOf x.2 : Int) - indentOf y.2 = indentOf x.1 - indentOf y.1

theorem indentOf_padding_append (level : Nat) (cs : List Char) :
    indentOf (padding level ++ cs) = 2 * level + indentOf cs := by
  have hblanks : ∀ c ∈ padding level, isIndent c = true := by
    intro c hc
    rw [List.eq_of_mem_replicate hc]
    decide
  rw [indentOf, List.takeWhile_append_of_pos hblanks, List.length_append, padding, List.length_replicate, indentOf]

/-- What is left of a text without characters of a class at its front does not begin with any of them. -/
theorem takeWhile_dropWhile {p q : Char → Bool} (h : ∀ c, p c = true → q c = true) (cs : List Char) :
    (cs.dropWhile q).takeWhile p = [] := by
  cases hcs : cs.dropWhile q with
  | nil => rfl
  | cons c rest =>
    have hhead : q c = false := by simpa [hcs] using List.head?_dropWhile_not q cs
    refine List.takeWhile_cons_of_neg fun hc => ?_
    rw [h c hc] at hhead
    cases hhead

theorem indentOf_drop (h : m ≤ indentOf line) : indentOf (line.drop m) = indentOf line - m := by
  have hsplit : line.drop m = (line.takeWhile isIndent).drop m ++ line.dropWhile isIndent := by
    rw [← List.drop_append_of_le_length h, List.takeWhile_append_dropWhile]
  have hindent : ∀ c ∈ (line.takeWhile isIndent).drop m, isIndent c = true := fun c hc =>
    List.mem_takeWhile_imp (List.mem_of_mem_drop hc)
  rw [hsplit, indentOf, List.takeWhile_append_of_pos hindent, takeWhile_dropWhile fun _ => id, List.append_nil,
    List.length_drop, indentOf]

theorem indentOf_trimStart (line : List Char) : indentOf (trimStart line) = 0 :=
  congrArg List.length (takeWhile_dropWhile (fun _ => isBlank_of_isIndent) line)

/-- White space after code is no indentation. -/
theorem indentOf_trimEnd (h : allBlank cs = false) : indentOf (trimEnd cs) = indentOf cs := by
  obtain ⟨blanks, hcs, hblanks⟩ := exists_eq_trimEnd_append cs
  have hcode : ¬((trimEnd cs).takeWhile isIndent).length = (trimEnd cs).length := by
    intro hall
    have hindent : ∀ c ∈ trimEnd cs, isIndent c = true := List.takeWhile_eq_self_iff.1
      ((List.takeWhile_prefix isIndent).eq_of_length hall)
    rw [hcs, allBlank, List.all_append, List.all_eq_true.2 hblanks,
      List.all_eq_true.2 fun c hc => isBlank_of_isIndent (hindent c hc)] at h
    cases h
  conv_rhs => rw [hcs]
  rw [indentOf, indentOf, List.takeWhile_append, if_neg hcode]

theorem length_le_byteLength (cs : List Char) : cs.length ≤ byteLength cs := by
  induction cs with
  | nil => rfl
  | cons c cs ih =>
    have hpos := c.utf8Size_pos
    rw [List.length_cons, byteLength_cons]
    omega

/-- What is left of the indentation of a line. -/
theorem indentOf_withoutMargin? {body : List Char} (hm : m ≤ indentOf line)
    (h : withoutMargin? m line = some body) : indentOf body = if 0 < m then indentOf line - m else 0 := by
  have hlength : indentOf line ≤ byteLength line :=
    (List.takeWhile_prefix isIndent).length_le.trans (length_le_byteLength line)
  have hplain : ∀ c ∈ line.take m, c.utf8Size = 1 := fun c hc =>
    utf8Size_of_isIndent (isIndent_of_mem_take hm c hc)
  rw [withoutMargin?] at h
  split at h
  · next hpos =>
    rw [dropBytes?_of_plain hplain (hm.trans (List.takeWhile_prefix isIndent).length_le)] at h
    cases h
    rw [if_pos hpos.1, indentOf_drop hm]
  · next hzero =>
    cases h
    rw [if_neg fun hpos => hzero ⟨hpos, hm.trans hlength⟩, indentOf_trimStart]

/-- **The indentation of a line at its level.** -/
theorem Becomes.indentOf_eq (h : Becomes level m line out) (hm : m ≤ indentOf line) (hline : allBlank line = false) :
    indentOf out = 2 * level + if 0 < m then indentOf line - m else 0 := by
  obtain ⟨gone, body, hsplit, hgone, hbody⟩ := withoutMargin?_eq_some hm
  have hnot : allBlank body = false := by rwa [hsplit, allBlank_append_of_blank hgone] at hline
  rw [Becomes, placeLine?, hbody, Option.map_some, hnot, Option.some.injEq] at h
  have hout : padding level ++ trimEnd body = out := List.append_cancel_right h
  rw [← hout, indentOf_padding_append, indentOf_trimEnd hnot, indentOf_withoutMargin? hm hbody]

theorem margin_pos (hmem : line ∈ lines) (hline : allBlank line = false)
    (h : ∀ line ∈ lines, allBlank line = false → 0 < indentOf line) : 0 < margin lines := by
  cases hmin : ((lines.filter (!allBlank ·)).map indentOf).min? with
  | none =>
    rw [List.min?_eq_none_iff, List.map_eq_nil_iff, List.filter_eq_nil_iff] at hmin
    exact absurd (hmin line hmem) (by simp [hline])
  | some least =>
    obtain ⟨line, hline, rfl⟩ := List.mem_map.1 (List.min?_mem hmin)
    obtain ⟨hline, hblank⟩ := List.mem_filter.1 hline
    rw [margin, hmin]
    exact h line hline (by simpa using hblank)

/-- Lines keep their steps if all of them are indented or none is. -/
theorem sameSteps_iff_of_becomes (h : List.Forall₂ (Becomes level (margin kept)) kept placed) :
    SameSteps kept placed ↔ (∀ line ∈ kept, allBlank line = false → 0 < indentOf line) ∨
      ∀ line ∈ kept, allBlank line = false → indentOf line = 0 := by
  have hindent : ∀ x ∈ kept.zip placed, allBlank x.1 = false → margin kept ≤ indentOf x.1 ∧
      indentOf x.2 = 2 * level + if 0 < margin kept then indentOf x.1 - margin kept else 0 := by
    intro x hx hblank
    have hm := margin_le_indentOf (List.of_mem_zip hx).1 hblank
    exact ⟨hm, Becomes.indentOf_eq (List.forall₂_zip h hx) hm hblank⟩
  have hzip : ∀ line ∈ kept, ∃ out, (line, out) ∈ kept.zip placed := by
    intro line hline
    rw [← List.map_fst_zip h.length_eq.le] at hline
    obtain ⟨⟨_, out⟩, hout, rfl⟩ := List.mem_map.1 hline
    exact ⟨out, hout⟩
  constructor
  · intro hsame
    by_cases hall : ∀ line ∈ kept, allBlank line = false → 0 < indentOf line
    · exact .inl hall
    · -- a line without indentation makes the margin zero, and then no line keeps any
      simp only [not_forall, Nat.not_lt, Nat.le_zero] at hall
      obtain ⟨first, hfirst, hfirstCode, hfirstIndent⟩ := hall
      refine .inr fun line hline hcode => ?_
      obtain ⟨firstOut, hfirst⟩ := hzip first hfirst
      obtain ⟨out, hout⟩ := hzip line hline
      have hstep := hsame _ hout _ hfirst hcode hfirstCode
      obtain ⟨hm, hfirstOut⟩ := hindent _ hfirst hfirstCode
      obtain ⟨-, hlineOut⟩ := hindent _ hout hcode
      have hzero : ¬0 < margin kept := by
        simp only at hm
        omega
      rw [if_neg hzero] at hfirstOut hlineOut
      simp only at hstep hfirstOut hlineOut
      omega
  · rintro (hall | hnone) x hx y hy hxCode hyCode
    · have hpos := margin_pos (List.of_mem_zip hx).1 hxCode hall
      obtain ⟨hxm, hxOut⟩ := hindent x hx hxCode
      obtain ⟨hym, hyOut⟩ := hindent y hy hyCode
      rw [if_pos hpos] at hxOut hyOut
      omega
    · have hxIndent := hnone x.1 (List.of_mem_zip hx).1 hxCode
      have hyIndent := hnone y.1 (List.of_mem_zip hy).1 hyCode
      obtain ⟨-, hxOut⟩ := hindent x hx hxCode
      obtain ⟨-, hyOut⟩ := hindent y hy hyCode
      rw [hxOut, hyOut, hxIndent, hyIndent]
      simp

theorem utf8Size_of_toNat_lt {c : Char} (h : c.toNat < 128) : c.utf8Size = 1 :=
  Char.utf8Size_eq_one_iff.2 (UInt32.le_iff_toNat_le.2 (Nat.le_of_lt_succ h))

theorem forall₂_carried (h : List.Forall₂ (Becomes level (margin (blockLines block))) (blockLines block) placed) :
    List.Forall₂ (Carried level) (blockLines block) placed := by
  refine List.forall₂_iff_zip.2 ⟨h.length_eq, fun {line out} hzip => ?_⟩
  have hline := (List.of_mem_zip hzip).1
  exact Becomes.carried (List.forall₂_zip h hzip) (newline_notMem_of_mem_blockLines hline) (margin_le_indentOf hline)

/-- **Steps of indentation.** A block of ASCII text can be moved to any level. The lines that are kept have the same
steps of indentation as before exactly if all of them are indented or none is, blank lines apart. -/
theorem sameSteps_iff (level : Nat) {block : List Char} (hblock : ∀ c ∈ block, c.toNat < 128) :
    Inner (pieces (· = '\n') block) (blockLines block) ∧
    ∃ placed, reindent? level block = some (placed.flatMap (· ++ ['\n'])) ∧
      List.Forall₂ (Carried level) (blockLines block) placed ∧
      (SameSteps (blockLines block) placed ↔
        (∀ line ∈ blockLines block, allBlank line = false → 0 < indentOf line) ∨
          ∀ line ∈ blockLines block, allBlank line = false → indentOf line = 0) := by
  obtain ⟨text, htext⟩ := reindent?_of_plain (fun c hc => utf8Size_of_toNat_lt (hblock c hc)) level
  obtain ⟨placed, rfl, hplaced⟩ := exists_placed htext
  exact ⟨inner_blockLines block, placed, htext, forall₂_carried hplaced, sameSteps_iff_of_becomes hplaced⟩

theorem toNat_lt_of_all (h : cs.all (·.toNat < 128) = true) : ∀ c ∈ cs, c.toNat < 128 := by simpa using h

/-- Indented code with a step in it. -/
def stepped : List Char := "\n    if (x)\n      y;\n".toList

/-- Indented code keeps its step. -/
theorem sameSteps_stepped : (∀ c ∈ stepped, c.toNat < 128) ∧
    ∃ placed, reindent? 1 stepped = some (placed.flatMap (· ++ ['\n'])) ∧
      SameSteps ["    if (x)".toList, "      y;".toList] placed := by
  have hascii : ∀ c ∈ stepped, c.toNat < 128 := toNat_lt_of_all (by decide)
  have hlines : blockLines stepped = ["    if (x)".toList, "      y;".toList] := by decide
  obtain ⟨-, placed, hplaced, -, hsteps⟩ := sameSteps_iff 1 hascii
  rw [hlines] at hsteps
  exact ⟨hascii, placed, hplaced, hsteps.2 (.inl (by decide))⟩

/-- Code with a step in it, the first line of which is not indented. -/
def flush : List Char := "if (x)\n  y;".toList

/-- Code that begins without indentation loses its step. -/
theorem not_sameSteps_flush : (∀ c ∈ flush, c.toNat < 128) ∧
    Inner (pieces (· = '\n') flush) ["if (x)".toList, "  y;".toList] ∧
    reindent? 1 flush = some (["  if (x)".toList, "  y;".toList].flatMap (· ++ ['\n'])) ∧
    ¬SameSteps ["if (x)".toList, "  y;".toList] ["  if (x)".toList, "  y;".toList] := by
  refine ⟨toNat_lt_of_all (by decide), inner_blockLines flush, by decide, fun hsame => ?_⟩
  have hstep := hsame ("  y;".toList, "  y;".toList) (by decide) ("if (x)".toList, "  if (x)".toList) (by decide)
    (by decide) (by decide)
  exact absurd hstep (by decide)

end Text

namespace Piece

/-- A piece is written behind those before it. -/
theorem renderAll_concat {before : List Piece} {text : String} (h : renderAll before = .ok text) (p : Piece) :
    renderAll (before ++ [p]) = p.render.map (text ++ ·) := by
  induction before generalizing text with
  | nil =>
    cases h
    rw [List.nil_append, renderAll]
    cases p.render with
    | error e => rfl
    | ok s =>
      show Except.ok (s ++ "") = Except.ok ("" ++ s)
      rw [String.append_empty, String.empty_append]
  | cons q before ih =>
    obtain ⟨head, hhead, h⟩ := Outcome.bind_eq_ok.1 h
    obtain ⟨rest, hrest, h⟩ := Outcome.bind_eq_ok.1 h
    cases h
    rw [List.cons_append, renderAll, hhead, ih hrest]
    cases p.render with
    | error e => rfl
    | ok s =>
      show Except.ok (head ++ (rest ++ s)) = Except.ok (head ++ rest ++ s)
      rw [String.append_assoc]

/-- **A block loses no code.** Behind pieces that have a text, a block stops everything exactly if the margin ends
inside a character of a blank line that is kept; this needs a character beyond ASCII on a blank line. Otherwise the
text stays as it is, and behind it stands one line for each line of the block but a blank first and a blank last
one. -/
theorem block_carried {before : List Piece} {text : String} (hbefore : renderAll before = .ok text) (level : Nat)
    (code : String) :
    Text.Inner (Text.pieces (· = '\n') code.toList) (Text.blockLines code.toList) ∧
    (renderAll (before ++ [.block level code]) = .error .crash ↔
      ∃ line ∈ Text.blockLines code.toList, Text.allBlank line = true ∧
        Text.margin (Text.blockLines code.toList) ≤ Text.byteLength line ∧
        ∀ start, start <+: line → Text.byteLength start ≠ Text.margin (Text.blockLines code.toList)) ∧
    ((∀ line ∈ Text.pieces (· = '\n') code.toList, Text.allBlank line = true → ∀ c ∈ line, c.toNat < 128) →
      ∃ result, renderAll (before ++ [.block level code]) = .ok result) ∧
    ∀ result, renderAll (before ++ [.block level code]) = .ok result →
      ∃ placed, result.toList = text.toList ++ placed.flatMap (· ++ ['\n']) ∧
        List.Forall₂ (Text.Carried level) (Text.blockLines code.toList) placed := by
  rw [renderAll_concat hbefore, ← Text.reindent?_eq_none_iff level, render]
  refine ⟨Text.inner_blockLines _, ?_, fun hascii => ?_, fun result hresult => ?_⟩
  · cases Text.reindent? level code.toList <;> simp [Except.map]
  · obtain ⟨moved, hmoved⟩ := Text.exists_reindent? level fun line hline hblank c hc =>
      Text.utf8Size_of_toNat_lt (hascii line hline hblank c hc)
    rw [hmoved]
    exact ⟨_, rfl⟩
  · cases hmoved : Text.reindent? level code.toList with
    | none =>
      rw [hmoved] at hresult
      cases hresult
    | some moved =>
      rw [hmoved] at hresult
      cases hresult
      obtain ⟨placed, rfl, hplaced⟩ := Text.exists_placed hmoved
      exact ⟨placed, by rw [String.toList_append, String.toList_ofList], Text.forall₂_carried hplaced⟩

/-- A blank line with a no-break space, shorter than the margin, and code with white space after it. -/
def spaced : String := "\n    if (x)\n\u00a0\n      y; \t\n  "

/-- A no-break space that the margin ends in. -/
def torn : String := "\n if (x)\n\u00a0\n"

/-- A no-break space on a blank line does not matter, unless the margin ends in it. -/
theorem block_carried_spaced : renderAll [.verbatim "int x;\n"] = .ok "int x;\n" ∧
    (∃ result, renderAll ([.verbatim "int x;\n"] ++ [.block 1 spaced]) = .ok result ∧
      ∃ placed, result.toList = "int x;\n".toList ++ placed.flatMap (· ++ ['\n']) ∧
        List.Forall₂ (Text.Carried 1) ["    if (x)".toList, ['\u00a0'], "      y; \t".toList] placed) ∧
    renderAll ([.verbatim "int x;\n"] ++ [.block 0 torn]) = .error .crash := by
  have hbefore : renderAll [.verbatim "int x;\n"] = .ok "int x;\n" := by decide
  have hspaced : Text.blockLines spaced.toList = ["    if (x)".toList, ['\u00a0'], "      y; \t".toList] := by decide
  have htorn : Text.blockLines torn.toList = [" if (x)".toList, ['\u00a0']] := by decide
  obtain ⟨-, -, -, hresult⟩ := block_carried hbefore 1 spaced
  obtain ⟨-, hcrash, -⟩ := block_carried hbefore 0 torn
  rw [hspaced] at hresult
  rw [htorn] at hcrash
  refine ⟨hbefore, ?_, hcrash.2 ⟨['\u00a0'], by decide, by decide, by decide, fun start hstart => ?_⟩⟩
  · have hrendered : renderAll ([.verbatim "int x;\n"] ++ [.block 1 spaced]) =
        .ok "int x;\n  if (x)\n\n    y;\n" := by decide
    exact ⟨_, hrendered, hresult _ hrendered⟩
  · rcases List.prefix_cons_iff.1 hstart with rfl | ⟨rest, rfl, hrest⟩
    · decide
    · rw [List.prefix_nil.1 hrest]
      decide

end Piece

end OpFusion
