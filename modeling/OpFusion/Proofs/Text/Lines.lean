/-
  The lines of a text.

  A text of which every line has its end can be cut into lines part by part (`lines_append`). The lines of a
  block that is moved to a level are blank, or come from a line of the block, behind the blanks of the level
  (`Placed`, `lines_reindent?`).
-/
import OpFusion.Proofs.Files
import OpFusion.Text.Block

namespace OpFusion.Text

variable {cs ds line : List Char}

/-! ## Texts of whole lines -/

/-- Every line of a text has its end. -/
def Ended (cs : List Char) : Prop := cs = [] ∨ ∃ body, cs = body ++ ['\n']

theorem Ended.append (h : Ended cs) (h' : Ended ds) : Ended (cs ++ ds) := by
  rcases h' with rfl | ⟨body, rfl⟩
  · rwa [List.append_nil]
  · exact .inr ⟨cs ++ body, (List.append_assoc ..).symm⟩

theorem ended_flatMap (lines : List (List Char)) : Ended (lines.flatMap (· ++ ['\n'])) := by
  induction lines with
  | nil => exact .inl rfl
  | cons line lines ih => exact Ended.append (.inr ⟨line, rfl⟩) ih

theorem linesOfPieces_append (ps : List (List Char)) {qs : List (List Char)} (hqs : qs ≠ []) :
    linesOfPieces (ps ++ qs) = ps.map dropReturn ++ linesOfPieces qs := by
  induction ps with
  | nil => rfl
  | cons piece ps ih =>
    rw [List.cons_append, linesOfPieces, ih, List.map_cons, List.cons_append]
    simp [hqs]

/-- **The lines of a text are those of its parts.** -/
theorem lines_append (h : Ended cs) (ds : List Char) : lines (cs ++ ds) = lines cs ++ lines ds := by
  rcases h with rfl | ⟨body, rfl⟩
  · rfl
  · have hcut : ∀ rest, lines (body ++ '\n' :: rest) =
        (pieces (· = '\n') body).map dropReturn ++ lines rest := fun rest => by
      rw [lines, pieces_append_cons (by decide), linesOfPieces_append _ (pieces_ne_nil _ rest), lines]
    rw [List.append_assoc, List.singleton_append, hcut, hcut]
    simp [lines, pieces, linesOfPieces]

theorem dropReturn_eq_self (h : line.getLast? ≠ some '\r') : dropReturn line = line := if_neg h

theorem pieces_line (h : '\n' ∉ line) : pieces (· = '\n') line = [line] :=
  pieces_eq_self fun _ hc => decide_eq_false fun heq => h (heq ▸ hc)

theorem lines_line (h : '\n' ∉ line) : lines (line ++ ['\n']) = [dropReturn line] := by
  rw [lines, pieces_append_cons (by decide), pieces_line h]
  simp [pieces, linesOfPieces]

theorem lines_flatMap {lines : List (List Char)} (h : ∀ line ∈ lines, '\n' ∉ line) :
    Text.lines (lines.flatMap (· ++ ['\n'])) = lines.map dropReturn := by
  induction lines with
  | nil => rfl
  | cons line lines ih =>
    rw [List.flatMap_cons, lines_append (.inr ⟨line, rfl⟩), lines_line (h line (by simp)),
      ih fun l hl => h l (by simp [hl]), List.singleton_append, List.map_cons]

/-! ## White space at the ends -/

theorem trimStart_suffix (cs : List Char) : trimStart cs <:+ cs := List.dropWhile_suffix _

theorem trimEnd_isPrefix (cs : List Char) : trimEnd cs <+: cs := by
  rw [trimEnd, ← List.reverse_suffix, List.reverse_reverse]
  exact List.dropWhile_suffix _

theorem trim_isInfix (cs : List Char) : trim cs <:+: cs :=
  (trimEnd_isPrefix _).isInfix.trans (trimStart_suffix cs).isInfix

theorem getLast?_trimEnd_ne (cs : List Char) {c : Char} (hc : isBlank c = true) :
    (trimEnd cs).getLast? ≠ some c := by
  rw [trimEnd, List.getLast?_reverse]
  intro h
  have hnot := List.head?_dropWhile_not isBlank cs.reverse
  rw [h] at hnot
  simp [hc] at hnot

/-! ## Blocks -/

/-- No piece has a character at which the text was cut. -/
theorem not_of_mem_pieces {p : Char → Bool} (h : line ∈ pieces p cs) : ∀ c ∈ line, p c = false := by
  induction cs generalizing line with
  | nil =>
    obtain rfl : line = [] := by simpa [pieces] using h
    simp
  | cons x cs ih =>
    unfold pieces at h
    split at h
    · rcases List.mem_cons.1 h with rfl | h
      · simp
      · exact ih h
    · next hx =>
      split at h
      · obtain rfl : line = [x] := by simpa using h
        simpa using hx
      · next w ws hpieces =>
        rcases List.mem_cons.1 h with rfl | h
        · exact List.forall_mem_cons.2 ⟨by simpa using hx, ih (by simp [hpieces])⟩
        · exact ih (by simp [hpieces, h])

theorem mem_pieces_of_mem_blockLines {block line : List Char} (h : line ∈ blockLines block) :
    line ∈ pieces (· = '\n') block := by
  have hlast : ∀ {ls : List (List Char)}, line ∈ dropBlankLast ls → line ∈ ls := by
    intro ls hl
    unfold dropBlankLast at hl
    split at hl
    · exact (List.dropLast_sublist ls).subset hl
    · exact hl
  have hhead : ∀ {ls : List (List Char)}, line ∈ dropBlankHead ls → line ∈ ls := by
    intro ls hl
    cases ls with
    | nil => exact hl
    | cons x ls =>
      rw [dropBlankHead] at hl
      split at hl
      · exact List.mem_cons_of_mem _ hl
      · exact hl
  exact hhead (hlast h)

theorem newline_notMem_of_mem_blockLines {block line : List Char} (h : line ∈ blockLines block) : '\n' ∉ line :=
  fun hmem => by simpa using not_of_mem_pieces (mem_pieces_of_mem_blockLines h) _ hmem

theorem dropBytes?_suffix {n : Nat} (h : dropBytes? n cs = some ds) : ds <:+ cs := by
  fun_induction dropBytes? n cs with
  | case1 cs => cases h; exact List.suffix_refl _
  | case2 n => cases h
  | case3 n c cs hle ih => exact (ih h).trans (List.suffix_cons c cs)
  | case4 n c cs hgt => cases h

theorem withoutMargin?_suffix {margin : Nat} (h : withoutMargin? margin line = some ds) : ds <:+ line := by
  unfold withoutMargin? at h
  split at h
  · exact dropBytes?_suffix h
  · cases h
    exact trimStart_suffix line

/-- A line at a level: it is blank, or comes from another line, behind the blanks of the level. -/
def Placed (level : Nat) (piece line : List Char) : Prop :=
  line = [] ∨ ∃ body, line = padding level ++ body ∧ body <:+: piece

theorem Placed.mem {level : Nat} {piece : List Char} (h : Placed level piece line) {c : Char} (hc : c ∈ line) :
    c = ' ' ∨ c ∈ piece := by
  rcases h with rfl | ⟨body, rfl, hbody⟩
  · cases hc
  · rcases List.mem_append.1 hc with hc | hc
    · exact .inl (List.eq_of_mem_replicate hc)
    · exact .inr (hbody.subset hc)

theorem Placed.of_isInfix {level : Nat} {piece piece' : List Char} (h : Placed level piece line)
    (hpiece : piece <:+: piece') : Placed level piece' line :=
  h.imp_right fun ⟨body, hline, hbody⟩ => ⟨body, hline, hbody.trans hpiece⟩

/-- A line that is moved to a level. -/
theorem placeLine?_eq_some {level margin : Nat} {placed : List Char}
    (h : placeLine? level margin line = some placed) :
    ∃ text, placed = text ++ ['\n'] ∧ text.getLast? ≠ some '\r' ∧ Placed level line text := by
  obtain ⟨body, hbody, rfl⟩ := Option.map_eq_some_iff.1 h
  split
  · exact ⟨[], rfl, by simp, .inl rfl⟩
  · refine ⟨padding level ++ trimEnd body, rfl, ?_, .inr ⟨trimEnd body, rfl, ?_⟩⟩
    · rw [List.getLast?_append, padding, List.getLast?_replicate]
      have hend := getLast?_trimEnd_ne body (show isBlank '\r' = true by decide)
      cases hlast : (trimEnd body).getLast? with
      | none => split <;> simp
      | some c => rwa [hlast] at hend
    · exact (trimEnd_isPrefix body).isInfix.trans (withoutMargin?_suffix hbody).isInfix

theorem lines_flatten_placed {level margin : Nat} {kept placed : List (List Char)}
    (h : kept.mapM (placeLine? level margin) = some placed) (hkept : ∀ piece ∈ kept, '\n' ∉ piece) :
    Ended placed.flatten ∧ (lines placed.flatten).length = kept.length ∧
      ∀ line ∈ lines placed.flatten, ∃ piece ∈ kept, Placed level piece line := by
  induction kept generalizing placed with
  | nil =>
    cases h
    exact ⟨.inl rfl, rfl, by simp [lines, pieces, linesOfPieces]⟩
  | cons piece kept ih =>
    rw [List.mapM_cons] at h
    obtain ⟨first, hfirst, h⟩ := Option.bind_eq_some_iff.1 h
    obtain ⟨rest, hrest, h⟩ := Option.bind_eq_some_iff.1 h
    cases h
    obtain ⟨text, rfl, hreturn, hplaced⟩ := placeLine?_eq_some hfirst
    obtain ⟨hended, hlength, hlines⟩ := ih hrest fun q hq => hkept q (by simp [hq])
    have hnewline : '\n' ∉ text := fun hmem =>
      (hplaced.mem hmem).elim (by decide) (hkept piece (by simp))
    rw [List.flatten_cons]
    refine ⟨Ended.append (.inr ⟨text, rfl⟩) hended, ?_⟩
    rw [lines_append (.inr ⟨text, rfl⟩), lines_line hnewline, dropReturn_eq_self hreturn,
      List.singleton_append]
    refine ⟨congrArg (· + 1) hlength, ?_⟩
    refine List.forall_mem_cons.2 ⟨⟨piece, by simp, hplaced⟩, fun line hline => ?_⟩
    obtain ⟨q, hq, hplaced'⟩ := hlines line hline
    exact ⟨q, by simp [hq], hplaced'⟩

theorem length_blockLines_le (block : List Char) :
    (blockLines block).length ≤ (pieces (· = '\n') block).length := by
  have hhead : ∀ ls : List (List Char), (dropBlankHead ls).length ≤ ls.length := by
    intro ls
    cases ls with
    | nil => exact Nat.le_refl 0
    | cons line rest =>
      rw [dropBlankHead]
      split <;> simp
  have hlast : ∀ ls : List (List Char), (dropBlankLast ls).length ≤ ls.length := by
    intro ls
    rw [dropBlankLast]
    split <;> simp
  exact (hlast _).trans (hhead _)

/-- **The lines of a block that is moved to a level come from lines of the block.** -/
theorem lines_reindent? {level : Nat} {block text : List Char} (h : reindent? level block = some text) :
    Ended text ∧ (lines text).length ≤ (pieces (· = '\n') block).length ∧
      ∀ line ∈ lines text, ∃ piece ∈ pieces (· = '\n') block, Placed level piece line := by
  unfold reindent? at h
  split at h
  · cases h
    exact ⟨.inl rfl, Nat.zero_le _, by simp [lines, pieces, linesOfPieces]⟩
  · obtain ⟨placed, hplaced, rfl⟩ := Option.map_eq_some_iff.1 h
    obtain ⟨hended, hlength, hlines⟩ :=
      lines_flatten_placed hplaced fun _ => newline_notMem_of_mem_blockLines
    refine ⟨hended, hlength ▸ length_blockLines_le block, fun line hline => ?_⟩
    obtain ⟨piece, hpiece, hline⟩ := hlines line hline
    exact ⟨piece, mem_pieces_of_mem_blockLines hpiece, hline⟩

theorem pieces_flatMap {lines : List (List Char)} (h : ∀ line ∈ lines, '\n' ∉ line) {last : List Char}
    (hlast : '\n' ∉ last) :
    pieces (· = '\n') (lines.flatMap (· ++ ['\n']) ++ last) = lines ++ [last] := by
  induction lines with
  | nil => exact pieces_line hlast
  | cons line lines ih =>
    rw [List.flatMap_cons, List.append_assoc, List.append_assoc, List.singleton_append,
      pieces_append_cons (by decide), pieces_line (h line (by simp)), ih fun l hl => h l (by simp [hl]),
      List.singleton_append, List.cons_append]

theorem pieces_indented (indent : Nat) {lines : List String} (h : ∀ line ∈ lines, '\n' ∉ line.toList) :
    pieces (· = '\n') (indented indent lines).toList =
      [] :: lines.map (fun line => List.replicate indent ' ' ++ line.toList) ++ [List.replicate indent ' '] := by
  have hpad : '\n' ∉ List.replicate indent ' ' := fun hmem => absurd (List.eq_of_mem_replicate hmem) (by decide)
  have htext : (indented indent lines).toList =
      ([] :: lines.map (fun line => List.replicate indent ' ' ++ line.toList)).flatMap (· ++ ['\n']) ++
        List.replicate indent ' ' := by
    simp [indented, String.toList_join, List.flatMap_map]
  rw [htext, pieces_flatMap ?_ hpad]
  simp only [List.forall_mem_cons, List.forall_mem_map, List.mem_append, not_or]
  exact ⟨by simp, fun line hline => ⟨hpad, h line hline⟩⟩

/-- A block in the form in which blocks are written: its lines come from those that are given, or are blank. -/
theorem lines_indented {level indent : Nat} {lines : List String} (h : ∀ line ∈ lines, '\n' ∉ line.toList)
    {text : List Char} (htext : reindent? level (indented indent lines).toList = some text) :
    Ended text ∧ (Text.lines text).length ≤ lines.length + 2 ∧ ∀ line ∈ Text.lines text,
      ∃ piece ∈ "" :: lines, Placed level (List.replicate indent ' ' ++ piece.toList) line := by
  obtain ⟨hended, hlength, hlines⟩ := lines_reindent? htext
  rw [pieces_indented indent h] at hlength hlines
  refine ⟨hended, by simpa using hlength, fun line hline => ?_⟩
  obtain ⟨piece, hpiece, hplaced⟩ := hlines line hline
  rw [List.cons_append, List.mem_cons, List.mem_append, List.mem_map,
    List.mem_singleton] at hpiece
  rcases hpiece with rfl | ⟨given, hgiven, rfl⟩ | rfl
  · exact ⟨"", by simp, hplaced.of_isInfix (List.nil_infix)⟩
  · exact ⟨given, by simp [hgiven], hplaced⟩
  · exact ⟨"", by simp, by simpa using hplaced⟩

end OpFusion.Text
