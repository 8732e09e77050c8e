/-
  The lines of a block, one by one.

  A line that is not blank is kept (`exists_getElem?_blockLines`), the margin is no more than its indentation
  (`margin_le_indentOf`), so that it loses leading white space only (`withoutMargin?_eq_some`). So only a
  blank line can stop a block from being moved (`exists_reindent?`), and a line that is not blank stands,
  behind the padding of the level and without white space at its end, at its place among the lines of the
  text that the block becomes (`exists_getElem?_reindent?`). Code at the end of a line, with no white space
  at its own ends, is not touched at all (`Solid.exists_getElem?`).
-/
import OpFusion.Proofs.Outcome
import OpFusion.Proofs.Text.Lines

namespace OpFusion.Text

variable {line block text : List Char} {lines : List (List Char)}

/-! ## Which lines are kept -/

/-- At most one line is dropped in front, before any line that is not blank. -/
theorem exists_dropBlankHead_eq (lines : List (List Char)) : ∃ k ≤ 1, dropBlankHead lines = lines.drop k ∧
    ∀ i line, lines[i]? = some line → allBlank line = false → k ≤ i := by
  cases lines with
  | nil => exact ⟨0, by omega, rfl, fun i _ _ _ => Nat.zero_le i⟩
  | cons first rest =>
    by_cases hfirst : allBlank first = true
    · refine ⟨1, le_rfl, if_pos hfirst, fun i line hi hline => ?_⟩
      cases i with
      | zero =>
        cases hi
        rw [hfirst] at hline
        cases hline
      | succ i => omega
    · exact ⟨0, by omega, if_neg hfirst, fun i _ _ _ => Nat.zero_le i⟩

theorem getElem?_dropBlankLast {i : Nat} (h : lines[i]? = some line) (hline : allBlank line = false) :
    (dropBlankLast lines)[i]? = some line := by
  unfold dropBlankLast
  split
  · next hlast =>
    obtain ⟨hlt, rfl⟩ := List.getElem?_eq_some_iff.1 h
    -- the last line is blank, so this one stands before it
    have hne : i ≠ lines.length - 1 := by
      rintro rfl
      rw [List.getLast?_eq_getElem?, h] at hlast
      simp [hline] at hlast
    rw [List.getElem?_dropLast, if_pos (by omega), h]
  · exact h

/-- A line that is not blank is kept, and at most one line is dropped before it. -/
theorem exists_getElem?_blockLines (block : List Char) : ∃ k ≤ 1, ∀ i line,
    (pieces (· = '\n') block)[i]? = some line → allBlank line = false →
      k ≤ i ∧ (blockLines block)[i - k]? = some line := by
  obtain ⟨k, hk, hdrop, hbefore⟩ := exists_dropBlankHead_eq (pieces (· = '\n') block)
  refine ⟨k, hk, fun i line hi hline => ?_⟩
  have hle := hbefore i line hi hline
  refine ⟨hle, getElem?_dropBlankLast ?_ hline⟩
  rw [hdrop, List.getElem?_drop, Nat.add_sub_cancel' hle, hi]

/-! ## What a line loses -/

theorem isBlank_of_isIndent {c : Char} (h : isIndent c = true) : isBlank c = true := by
  simp only [isIndent, Bool.or_eq_true, decide_eq_true_eq] at h
  rcases h with rfl | rfl <;> decide

theorem utf8Size_of_isIndent {c : Char} (h : isIndent c = true) : c.utf8Size = 1 := by
  simp only [isIndent, Bool.or_eq_true, decide_eq_true_eq] at h
  rcases h with rfl | rfl <;> decide

theorem margin_le_indentOf (hmem : line ∈ lines) (hline : allBlank line = false) :
    margin lines ≤ indentOf line := by
  refine List.min?_getD_le_of_mem (List.mem_map_of_mem ?_)
  rw [List.mem_filter, hline]
  exact ⟨hmem, rfl⟩

/-- Characters of one byte are dropped one by one. -/
theorem dropBytes?_of_plain {cs : List Char} {n : Nat} (h : ∀ c ∈ cs.take n, c.utf8Size = 1)
    (hn : n ≤ cs.length) : dropBytes? n cs = some (cs.drop n) := by
  induction cs generalizing n with
  | nil =>
    obtain rfl : n = 0 := by simpa using hn
    rfl
  | cons c cs ih =>
    cases n with
    | zero => rfl
    | succ n =>
      rw [List.take_succ_cons, List.forall_mem_cons] at h
      rw [dropBytes?, h.1, if_pos (by omega), Nat.add_sub_cancel, ih h.2 (by simpa using hn),
        List.drop_succ_cons]

/-- The characters before the end of the indentation are indentation. -/
theorem isIndent_of_mem_take {m : Nat} (h : m ≤ indentOf line) : ∀ c ∈ line.take m, isIndent c = true := by
  intro c hc
  have hstart : line.take m <+: line.takeWhile isIndent :=
    List.prefix_of_prefix_length_le (List.take_prefix m line) (List.takeWhile_prefix isIndent)
      ((List.length_take_le m line).trans h)
  exact List.mem_takeWhile_imp (hstart.subset hc)

/-- **A line whose indentation reaches to the margin loses leading white space only.** -/
theorem withoutMargin?_eq_some {m : Nat} (h : m ≤ indentOf line) :
    ∃ gone body, line = gone ++ body ∧ (∀ c ∈ gone, isBlank c = true) ∧ withoutMargin? m line = some body := by
  by_cases hm : 0 < m ∧ m ≤ byteLength line
  · have hindent := isIndent_of_mem_take h
    have hplain : ∀ c ∈ line.take m, c.utf8Size = 1 := fun c hc => utf8Size_of_isIndent (hindent c hc)
    have hlength : m ≤ line.length := h.trans (List.takeWhile_prefix isIndent).length_le
    refine ⟨line.take m, line.drop m, (List.take_append_drop m line).symm,
      fun c hc => isBlank_of_isIndent (hindent c hc), ?_⟩
    rw [withoutMargin?, if_pos hm, dropBytes?_of_plain hplain hlength]
  · refine ⟨line.takeWhile isBlank, trimStart line, List.takeWhile_append_dropWhile.symm,
      fun c hc => List.mem_takeWhile_imp hc, ?_⟩
    rw [withoutMargin?, if_neg hm]

theorem allBlank_append_of_blank {gone : List Char} (h : ∀ c ∈ gone, isBlank c = true) (body : List Char) :
    allBlank (gone ++ body) = allBlank body := by
  rw [allBlank, List.all_append, List.all_eq_true.2 h, Bool.true_and, allBlank]

theorem placeLine?_eq {m : Nat} (level : Nat) (h : m ≤ indentOf line) (hline : allBlank line = false) :
    ∃ gone body, line = gone ++ body ∧ (∀ c ∈ gone, isBlank c = true) ∧
      placeLine? level m line = some (padding level ++ trimEnd body ++ ['\n']) := by
  obtain ⟨gone, body, rfl, hgone, hbody⟩ := withoutMargin?_eq_some h
  rw [allBlank_append_of_blank hgone] at hline
  refine ⟨gone, body, rfl, hgone, ?_⟩
  rw [placeLine?, hbody, Option.map_some, hline]
  rfl

/-! ## Blocks that can be moved -/

theorem byteLength_of_plain {cs : List Char} (h : ∀ c ∈ cs, c.utf8Size = 1) :
    byteLength cs = cs.length := by
  induction cs with
  | nil => rfl
  | cons c cs ih =>
    have hrest := ih fun x hx => h x (by simp [hx])
    simp only [byteLength, List.foldr_cons, List.length_cons] at hrest ⊢
    rw [h c (by simp), hrest, Nat.add_comm]

theorem placeLine?_of_plain {line : List Char} (h : ∀ c ∈ line, c.utf8Size = 1) (level margin : Nat) :
    ∃ placed, placeLine? level margin line = some placed := by
  by_cases hm : 0 < margin ∧ margin ≤ byteLength line
  · have hle : margin ≤ line.length := byteLength_of_plain h ▸ hm.2
    rw [placeLine?, withoutMargin?, if_pos hm,
      dropBytes?_of_plain (fun c hc => h c (List.mem_of_mem_take hc)) hle]
    exact ⟨_, rfl⟩
  · rw [placeLine?, withoutMargin?, if_neg hm]
    exact ⟨_, rfl⟩

/-- The characters of pieces are those of the text. -/
theorem mem_of_mem_pieces {p : Char → Bool} {cs line : List Char} (h : line ∈ pieces p cs) :
    ∀ c ∈ line, c ∈ cs := by
  induction cs generalizing line with
  | nil =>
    obtain rfl : line = [] := by simpa [pieces] using h
    simp
  | cons x cs ih =>
    intro c hc
    unfold pieces at h
    split at h
    · rcases List.mem_cons.1 h with rfl | h
      · simp at hc
      · exact List.mem_cons_of_mem _ (ih h c hc)
    · split at h
      · obtain rfl : line = [x] := by simpa using h
        simpa using Or.inl hc
      · next w ws hpieces =>
        rcases List.mem_cons.1 h with rfl | h
        · rcases List.mem_cons.1 hc with rfl | hc
          · simp
          · exact List.mem_cons_of_mem _ (ih (by simp [hpieces]) c hc)
        · exact List.mem_cons_of_mem _ (ih (by simp [hpieces, h]) c hc)

/-- **A block can be moved to any level if its blank lines have characters of one byte only.** A line that is
not blank may have any characters. -/
theorem exists_reindent? (level : Nat)
    (h : ∀ line ∈ pieces (· = '\n') block, allBlank line = true → ∀ c ∈ line, c.utf8Size = 1) :
    ∃ text, reindent? level block = some text := by
  unfold reindent?
  split
  · exact ⟨[], rfl⟩
  · have hlines : ∀ line ∈ blockLines block, ∃ placed,
        placeLine? level (margin (blockLines block)) line = some placed := by
      intro line hline
      cases hblank : allBlank line with
      | true => exact placeLine?_of_plain (h line (mem_pieces_of_mem_blockLines hline) hblank) level _
      | false =>
        obtain ⟨_, body, _, _, hplaced⟩ := placeLine?_eq level (margin_le_indentOf hline hblank) hblank
        exact ⟨_, hplaced⟩
    have hall : ∀ line ∈ blockLines block, placeLine? level (margin (blockLines block)) line =
        some ((placeLine? level (margin (blockLines block)) line).getD []) := by
      intro line hline
      obtain ⟨placed, hplaced⟩ := hlines line hline
      rw [hplaced]
      rfl
    exact ⟨_, congrArg (Option.map List.flatten) (Outcome.mapM_eq_some_map hall)⟩

theorem reindent?_of_plain (h : ∀ c ∈ block, c.utf8Size = 1) (level : Nat) :
    ∃ text, reindent? level block = some text :=
  exists_reindent? level fun _ hline _ c hc => h c (mem_of_mem_pieces hline c hc)

/-! ## Where it stands -/

/-- The lines of a text that is put together from lines that were moved. -/
theorem pieces_flatten_placed {level m : Nat} {kept placed : List (List Char)}
    (h : kept.mapM (placeLine? level m) = some placed) (hkept : ∀ piece ∈ kept, '\n' ∉ piece) :
    pieces (· = '\n') placed.flatten = placed.map List.dropLast ++ [[]] := by
  have hplaced : ∀ out ∈ placed, out = out.dropLast ++ ['\n'] ∧ '\n' ∉ out.dropLast := by
    intro out hout
    obtain ⟨i, hi⟩ := List.mem_iff_getElem?.1 hout
    rw [Outcome.getElem?_mapM h] at hi
    obtain ⟨piece, hpiece, hplace⟩ := Option.bind_eq_some_iff.1 hi
    obtain ⟨body, rfl, -, hbody⟩ := placeLine?_eq_some hplace
    rw [List.dropLast_concat]
    refine ⟨rfl, fun hmem => ?_⟩
    exact (hbody.mem hmem).elim (by decide) (hkept piece (List.mem_of_getElem? hpiece))
  have hflatten : placed.flatten = (placed.map List.dropLast).flatMap (· ++ ['\n']) ++ [] := by
    rw [List.append_nil, List.flatMap_map, ← List.flatMap_id]
    exact List.flatMap_congr fun out hout => (hplaced out hout).1
  rw [hflatten, pieces_flatMap (List.forall_mem_map.2 fun out hout => (hplaced out hout).2) (by simp)]

/-- **A line that is not blank stands at its place**, behind the padding of the level; it has lost white space
at its ends only. -/
theorem exists_getElem?_reindent? {level : Nat} (h : reindent? level block = some text) :
    ∃ k ≤ 1, ∀ i line, (pieces (· = '\n') block)[i]? = some line → allBlank line = false →
      k ≤ i ∧ ∃ gone body, line = gone ++ body ∧ (∀ c ∈ gone, isBlank c = true) ∧
        (pieces (· = '\n') text)[i - k]? = some (padding level ++ trimEnd body) := by
  obtain ⟨k, hk, hlines⟩ := exists_getElem?_blockLines block
  refine ⟨k, hk, fun i line hi hline => ?_⟩
  obtain ⟨hle, hkept⟩ := hlines i line hi hline
  refine ⟨hle, ?_⟩
  have hne : block ≠ [] := by
    rintro rfl
    have hblank := (List.mem_singleton.1 (List.mem_of_getElem? hi) : line = [])
    rw [hblank] at hline
    cases hline
  rw [reindent?, if_neg hne] at h
  obtain ⟨placed, hplaced, rfl⟩ := Option.map_eq_some_iff.1 h
  have hmargin := margin_le_indentOf (List.mem_of_getElem? hkept) hline
  obtain ⟨gone, body, hbody, hgone, hplace⟩ := placeLine?_eq level hmargin hline
  refine ⟨gone, body, hbody, hgone, ?_⟩
  have hout : placed[i - k]? = some (padding level ++ trimEnd body ++ ['\n']) := by
    rw [Outcome.getElem?_mapM hplaced, hkept, Option.bind_some, hplace]
  rw [pieces_flatten_placed hplaced fun _ => newline_notMem_of_mem_blockLines,
    List.getElem?_append_left (by simpa using (List.getElem?_eq_some_iff.1 hout).1), List.getElem?_map, hout,
    Option.map_some, List.dropLast_concat]

/-! ## Code on a line -/

/-- Code that begins and ends with characters that are not blank. -/
structure Solid (code : List Char) : Prop where
  head : ∃ c, code.head? = some c ∧ isBlank c = false
  last : ∃ c, code.getLast? = some c ∧ isBlank c = false

namespace Solid

variable {code blanks : List Char}

theorem allBlank_append (h : Solid code) (blanks : List Char) : allBlank (blanks ++ code) = false := by
  obtain ⟨c, hhead, hc⟩ := h.head
  rw [← Bool.not_eq_true, allBlank, List.all_eq_true]
  intro hall
  rw [hall c (List.mem_append_right _ (List.mem_of_head? hhead))] at hc
  cases hc

theorem takeWhile_append {p : Char → Bool} (hp : ∀ c, p c = true → isBlank c = true) (h : Solid code)
    (hblanks : ∀ c ∈ blanks, p c = true) : (blanks ++ code).takeWhile p = blanks := by
  obtain ⟨c, hhead, hc⟩ := h.head
  obtain ⟨rest, rfl⟩ := List.head?_eq_some_iff.1 hhead
  have hnot : ¬ p c = true := fun hpc => by rw [hp c hpc] at hc; cases hc
  rw [List.takeWhile_append_of_pos hblanks, List.takeWhile_cons_of_neg hnot, List.append_nil]

theorem trimEnd_append (h : Solid code) (kept : List Char) : trimEnd (kept ++ code) = kept ++ code := by
  obtain ⟨c, hlast, hc⟩ := h.last
  obtain ⟨rest, rfl⟩ := List.getLast?_eq_some_iff.1 hlast
  rw [trimEnd, ← List.append_assoc, List.reverse_append, List.reverse_singleton, List.singleton_append,
    List.dropWhile_cons_of_neg (by simp [hc]), List.reverse_cons, List.reverse_reverse]

/-- White space that is taken from the front of a line leaves the code at its end. -/
theorem exists_kept (h : Solid code) {front gone body : List Char} (hgone : ∀ c ∈ gone, isBlank c = true)
    (hline : front ++ code = gone ++ body) : ∃ kept, kept <:+ front ∧ body = kept ++ code := by
  obtain ⟨c, hhead, hc⟩ := h.head
  rcases List.append_eq_append_iff.1 hline with ⟨more, rfl, hcode⟩ | ⟨kept, rfl, rfl⟩
  · -- all before the code is gone, and no more than that, as the code does not begin with a blank
    cases more with
    | nil => exact ⟨[], List.nil_suffix, hcode.symm⟩
    | cons d more =>
      rw [hcode, List.cons_append, List.head?_cons, Option.some.injEq] at hhead
      rw [← hhead, hgone d (by simp)] at hc
      cases hc
  · exact ⟨kept, List.suffix_append _ _, rfl⟩

/-- **The code at the end of a line stands in the text as it is**, behind what is left of the line before it. -/
theorem exists_getElem? (h : Solid code) {level : Nat} (htext : reindent? level block = some text) :
    ∃ k ≤ 1, ∀ i front, (pieces (· = '\n') block)[i]? = some (front ++ code) →
      k ≤ i ∧ ∃ kept, kept <:+ front ∧
        (pieces (· = '\n') text)[i - k]? = some (padding level ++ kept ++ code) := by
  obtain ⟨k, hk, hlines⟩ := exists_getElem?_reindent? htext
  refine ⟨k, hk, fun i front hi => ?_⟩
  obtain ⟨hle, gone, body, hline, hgone, hplaced⟩ := hlines i _ hi (h.allBlank_append front)
  obtain ⟨kept, hkept, rfl⟩ := h.exists_kept hgone hline
  refine ⟨hle, kept, hkept, ?_⟩
  rw [hplaced, h.trimEnd_append, List.append_assoc]

theorem withoutMargin?_append (h : Solid code) (hblanks : ∀ c ∈ blanks, isIndent c = true) :
    withoutMargin? blanks.length (blanks ++ code) = some code := by
  by_cases hm : 0 < blanks.length ∧ blanks.length ≤ byteLength (blanks ++ code)
  · have hplain : ∀ c ∈ (blanks ++ code).take blanks.length, c.utf8Size = 1 := by
      rw [List.take_left]
      exact fun c hc => utf8Size_of_isIndent (hblanks c hc)
    rw [withoutMargin?, if_pos hm, dropBytes?_of_plain hplain (by simp), List.drop_left]
  · have hsplit := List.takeWhile_append_dropWhile (p := isBlank) (l := blanks ++ code)
    rw [h.takeWhile_append (fun _ => id) fun c hc => isBlank_of_isIndent (hblanks c hc)] at hsplit
    rw [withoutMargin?, if_neg hm]
    exact congrArg some (List.append_cancel_left hsplit)

/-- A block of one line loses all of its indentation. -/
theorem reindent?_line (h : Solid code) (hcode : '\n' ∉ code) (hblanks : ∀ c ∈ blanks, isIndent c = true)
    (level : Nat) : reindent? level (blanks ++ code) = some (padding level ++ code ++ ['\n']) := by
  have hnot := h.allBlank_append blanks
  have hne : blanks ++ code ≠ [] := by
    intro hnil
    rw [hnil] at hnot
    cases hnot
  have hfeed : '\n' ∉ blanks ++ code := by
    rw [List.mem_append, not_or]
    exact ⟨fun hmem => absurd (hblanks _ hmem) (by decide), hcode⟩
  have hlines : blockLines (blanks ++ code) = [blanks ++ code] := by
    simp [blockLines, pieces_line hfeed, dropBlankHead, dropBlankLast, hnot]
  have hmargin : margin [blanks ++ code] = blanks.length := by
    simp [margin, hnot, indentOf, h.takeWhile_append (fun _ => isBlank_of_isIndent) hblanks]
  have hplaced : placeLine? level blanks.length (blanks ++ code) = some (padding level ++ code ++ ['\n']) := by
    have hcode : trimEnd code = code := h.trimEnd_append []
    have hsolid : allBlank code = false := h.allBlank_append []
    rw [placeLine?, h.withoutMargin?_append hblanks, Option.map_some, hsolid, hcode]
    rfl
  rw [reindent?, if_neg hne, hlines]
  dsimp only
  rw [hmargin, List.mapM_cons, hplaced]
  simp

end Solid

end OpFusion.Text
