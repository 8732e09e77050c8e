/-
  The statement that reports a failure, in the code of a module.

  Its literal ends where it was written to end, and says the text of the failure (`Source.simple?`). The
  tokens of the statement are those of a call with this literal (`Context.tokens_fail`), and the text that
  the call finds in the bytes of the literal is the text of the failure up to its first null
  (`Frame.byteText_bytesOf`). The statement has no line end in it and is not blank at its ends, so that a
  block that has it on a line of its own still has it, as it is, at any level.
-/
import OpFusion.Exec.Frame
import OpFusion.Kind.Context
import OpFusion.Proofs.Source.Literal
import OpFusion.Proofs.Text.Blocks
import OpFusion.Proofs.Text.Utf8

namespace OpFusion

/-- The text in the bytes of a string is the part of it before its first null. -/
theorem Frame.byteText_bytesOf (s : String) : byteText (Utf8.bytesOf s) = Source.cText s := by
  rw [byteText, Utf8.bytesOf, Utf8.takeWhile_encode, Utf8.stringLossy, Utf8.decodeLossy_encode, Source.cText]

/-- The inside of a literal that can stand on a line of code: it has no line end, the literal ends behind it
and not before, and it has none of the sequences that begin with two question marks. -/
structure Source.Sound (inside : List Char) : Prop where
  feed : '\n' ∉ inside
  carriage : '\r' ∉ inside
  closed : ∀ rest, splitQuoted '"' (inside ++ '"' :: rest) = (inside, rest)
  trigraph : ¬ ['?', '?'] <:+: inside

theorem Source.sound_escapeChars (cs : List Char) : Sound (escapeChars cs) where
  feed := newline_notMem_of_simple? (simple?_escapeChars cs)
  carriage := return_notMem_escapeChars cs
  closed := splitQuoted_of_simple? (simple?_escapeChars cs)
  trigraph := (masked_escapeChars cs).1.not_isInfix

namespace Context

variable (c : Context) (message : String)

/-- What stands between the quotes of the statement. -/
def literal : List Char := Source.escapeChars (c.failure message).toList

theorem toList_fail :
    (c.fail message).toList = "FUSEJIT_FAIL(\"".toList ++ c.literal message ++ "\");".toList := by
  simp [fail, literal, Source.escape]

theorem sound_literal : Source.Sound (c.literal message) := Source.sound_escapeChars _

theorem simple?_literal : Source.simple? (c.literal message) = some (c.failure message).toList :=
  Source.simple?_escapeChars _

theorem solid_fail : Text.Solid (c.fail message).toList := by
  rw [toList_fail]
  refine ⟨⟨'F', rfl, by decide⟩, ⟨';', ?_, by decide⟩⟩
  rw [List.getLast?_append]
  rfl

theorem newline_notMem_fail : '\n' ∉ (c.fail message).toList := by
  rw [toList_fail]
  simp [(c.sound_literal message).feed]

/-- **The statement is a call with one literal.** -/
theorem tokens_fail : Source.tokens (c.fail message).toList =
    [.name "FUSEJIT_FAIL", .mark "(", .literal .plain (c.literal message), .mark ")", .mark ";"] := by
  have hname : Source.tokens (c.fail message).toList =
      Source.tokensFrom [.name "FUSEJIT_FAIL"] ('(' :: '"' :: (c.literal message ++ '"' :: [')', ';'])) := by
    rw [toList_fail, Source.tokens]
    conv => lhs; unfold Source.tokensFrom
    simp [Source.isSpace, Text.isBlank, Source.startsNumber, Source.isNameChar, Source.nameOrQuoted]
  rw [hname, Source.tokensFrom_mark (by simp), Source.tokensFrom_literal,
    (c.sound_literal message).closed, Source.tokensFrom_mark (by simp), Source.tokensFrom_mark (by simp),
    Source.tokensFrom_nil]
  rfl

/-- The text that the call finds in its literal. -/
theorem byteText_literal : Frame.byteText (Source.literalBytes (c.literal message)) =
    Source.cText (c.failure message) := by
  rw [Source.literalBytes_of_simple? (c.simple?_literal message)]
  exact Frame.byteText_bytesOf _

/-- **A failure comes through the code as it was given.** The literal of the statement can stand on a line, it
stands for the name of the application and the message, and so do its bytes, if there is no null in them. A
block of this statement can be moved to any level, and where a block that has it at the end of a line is
moved, the line still ends with the statement as it is. Only a blank line can stop a block from being moved. -/
theorem failure_kept (c : Context) (message : String) : ∃ inside,
    (c.fail message).toList = "FUSEJIT_FAIL(\"".toList ++ inside ++ "\");".toList ∧
    Source.Sound inside ∧
    Source.simple? inside = some (c.name ++ ": " ++ message).toList ∧
    Source.tokens (c.fail message).toList =
      [.name "FUSEJIT_FAIL", .mark "(", .literal .plain inside, .mark ")", .mark ";"] ∧
    ('\x00' ∉ c.name.toList → '\x00' ∉ message.toList →
      Frame.byteText (Source.literalBytes inside) = c.name ++ ": " ++ message) ∧
    (∀ level blanks, (∀ x ∈ blanks, Text.isIndent x = true) →
      Text.reindent? level (blanks ++ (c.fail message).toList) =
        some (Text.padding level ++ (c.fail message).toList ++ ['\n'])) ∧
    ∀ level block,
      ((∀ line ∈ Text.pieces (· = '\n') block, Text.allBlank line = true → ∀ x ∈ line, x.utf8Size = 1) →
        ∃ text, Text.reindent? level block = some text) ∧
      ∀ text, Text.reindent? level block = some text → ∃ k ≤ 1, ∀ i front,
        (Text.pieces (· = '\n') block)[i]? = some (front ++ (c.fail message).toList) →
          k ≤ i ∧ ∃ kept, kept <:+ front ∧ (Text.pieces (· = '\n') text)[i - k]? =
            some (Text.padding level ++ kept ++ (c.fail message).toList) := by
  have hsolid := c.solid_fail message
  refine ⟨c.literal message, c.toList_fail message, c.sound_literal message, c.simple?_literal message,
    c.tokens_fail message, fun hname hmessage => ?_, fun level blanks hblanks => ?_, fun level block => ?_⟩
  · rw [byteText_literal, failure, Source.cText_eq]
    simp only [String.toList_append, List.mem_append, not_or]
    exact ⟨⟨hname, by decide⟩, hmessage⟩
  · exact hsolid.reindent?_line (c.newline_notMem_fail message) hblanks level
  · exact ⟨Text.exists_reindent? level, fun text htext => hsolid.exists_getElem? htext⟩

/-- A message with quotes, question marks, a backslash, a line end and a character of two bytes, reported from
the third line of a block. -/
theorem failure_kept_quoting :
    let statement := (fail ⟨"n0_map", [], []⟩ "\"no\"??=\\\né").toList
    statement = "FUSEJIT_FAIL(\"n0_map: \\\"no\\\"\\?\\?=\\\\\\né\");".toList ∧
    (∃ inside, statement = "FUSEJIT_FAIL(\"".toList ++ inside ++ "\");".toList ∧
      Frame.byteText (Source.literalBytes inside) = "n0_map: \"no\"??=\\\né") ∧
    ∃ text, Text.reindent? 1 ("\n  if (x)\n    ".toList ++ statement) = some text ∧
      ∃ i ≤ 2, ∃ kept, (Text.pieces (· = '\n') text)[i]? = some (Text.padding 1 ++ kept ++ statement) := by
  obtain ⟨inside, hinside, -, -, -, hbytes, -, hblock⟩ := failure_kept ⟨"n0_map", [], []⟩ "\"no\"??=\\\né"
  have hfeed := newline_notMem_fail ⟨"n0_map", [], []⟩ "\"no\"??=\\\né"
  have hblank := (solid_fail ⟨"n0_map", [], []⟩ "\"no\"??=\\\né").allBlank_append "    ".toList
  refine ⟨by decide +kernel, ⟨inside, hinside, hbytes (by decide) (by decide)⟩, ?_⟩
  generalize (fail ⟨"n0_map", [], []⟩ "\"no\"??=\\\né").toList = statement at *
  have hpieces : Text.pieces (· = '\n') ("\n  if (x)\n    ".toList ++ statement) =
      [[], "  if (x)".toList, "    ".toList ++ statement] :=
    @Text.pieces_flatMap [[], "  if (x)".toList] (by decide) ("    ".toList ++ statement) (by simpa using hfeed)
  obtain ⟨hmoved, hline⟩ := hblock 1 ("\n  if (x)\n    ".toList ++ statement)
  rw [hpieces] at hmoved hline
  obtain ⟨text, htext⟩ := hmoved <| by
    simp only [List.forall_mem_cons, hblank]
    exact ⟨by simp, fun h => absurd h (by decide), by simp, by simp⟩
  obtain ⟨k, -, hlines⟩ := hline text htext
  obtain ⟨-, kept, -, hkept⟩ := hlines 2 "    ".toList rfl
  exact ⟨text, htext, 2 - k, by omega, kept, hkept⟩

end Context

end OpFusion
