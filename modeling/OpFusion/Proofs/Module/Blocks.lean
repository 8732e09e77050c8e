/-
  The blocks of applications of library kinds.

  All that is written for an application is local to its position: the extents of its outputs, the code that
  puts them in place, and the code of its kernel (`Kernel.exists_lines_code`). Its code is a block: a line with
  its marker, a brace, lines that are further in and name no other application (`Module.Inner`), and a brace
  (`Module.rows_applicationPieces`).
-/
import OpFusion.Proofs.Module.Acceptance
import OpFusion.Proofs.Module.Globals
import OpFusion.Proofs.Module.Header
import OpFusion.Proofs.Text.Numbered

namespace OpFusion

open Text (Local Reads local_ofList reads_ofList local_toString reads_number)

variable {own : List Char} {c : Context}

/-! ## What library kinds write -/

/-- A text that stands in a literal as it is. -/
def Source.Unescaped (s : String) : Prop := ∀ c ∈ s.toList, escapeChar c = [c]

theorem Source.Unescaped.append {s t : String} (hs : Unescaped s) (ht : Unescaped t) : Unescaped (s ++ t) := by
  unfold Unescaped
  rw [String.toList_append]
  exact List.forall_mem_append.2 ⟨hs, ht⟩

theorem Source.unescaped_ofList {cs : List Char} (h : (cs.all fun c => escapeChar c == [c]) = true) :
    Unescaped (String.ofList cs) := by
  unfold Unescaped
  rw [String.toList_ofList]
  simpa using h

theorem Source.escape_eq_self {s : String} (h : Unescaped s) : escape s = s := by
  rw [escape, escapeChars, List.flatMap_congr h, List.flatMap_singleton', String.ofList_toList]

theorem Source.unescaped_of_isPart {s : String} (h : ∀ c ∈ s.toList, Symbol.isPart c = true) :
    Unescaped s := by
  intro c hc
  have hne : ∀ d : Char, Symbol.isPart d = false → c ≠ d := fun d hd heq => by
    rw [← heq, h c hc] at hd
    cases hd
  simp [escapeChar, hne '\\' (by decide), hne '"' (by decide), hne '\n' (by decide), hne '\r' (by decide),
    hne '\t' (by decide), hne '?' (by decide)]

/-- The names of the library kinds. -/
def Kernel.kindNames : List String := ["scale", "reduce_sum", "elementwise_binary", "elementwise_unary"]

theorem Kernel.name_mem_kindNames (k : Kernel) : k.kind.name ∈ kindNames := by
  cases k <;> simp [kindNames, kind, Library.scale, Library.reduceSum, Library.binary, Library.unary]

/-- The name of an application is local to its position. -/
theorem Symbol.local_application (position : Nat) (k : Kernel) :
    Local (toString position).toList (application position k.kind.name) := by
  have hkind : Local (toString position).toList (sanitize k.kind.name) := by
    have hmem := k.name_mem_kindNames
    simp only [Kernel.kindNames, List.mem_cons, List.not_mem_nil, or_false] at hmem
    rcases hmem with h | h | h | h <;> rw [h] <;> exact local_ofList (by decide)
  have hletter : Reads (toString position).toList .outside "n" .letter := reads_ofList (by decide) rfl
  have hend : Reads (toString position).toList (.digits (toString position).toList) "_" .outside :=
    reads_ofList (by decide) (if_pos rfl)
  exact ((hletter.append (reads_number position)).append hend).append hkind

/-- A context whose name is that of an application, local to its number. -/
structure Context.Numbered (own : List Char) (c : Context) : Prop where
  name : Local own c.name
  unescaped : Source.Unescaped c.name

theorem Context.numbered {position : Nat} {k : Kernel} (h : c.name = Symbol.application position k.kind.name) :
    c.Numbered (toString position).toList := by
  refine ⟨?_, ?_⟩
  · rw [h]
    exact Symbol.local_application position k
  · rw [h]
    exact Source.unescaped_of_isPart fun _ => Symbol.isPart_of_mem_application

theorem Context.Numbered.failure (hc : c.Numbered own) {message : String} (hm : Local own message)
    (hplain : Source.Unescaped message) : Local own (Source.escape (c.failure message)) := by
  have hunescaped : Source.Unescaped (c.failure message) :=
    (hc.unescaped.append (Source.unescaped_ofList (by decide))).append hplain
  rw [Source.escape_eq_self hunescaped]
  exact (hc.name.append (local_ofList (by decide))).append hm

theorem Context.Numbered.fail (hc : c.Numbered own) {message : String} (hm : Local own message)
    (hplain : Source.Unescaped message) : Local own (c.fail message) :=
  ((local_ofList (by decide)).append (hc.failure hm hplain)).append (local_ofList (by decide))

theorem DType.local_cType (d : DType) : Local own d.cType := by
  cases d <;> exact local_ofList (by decide)

theorem DType.local_cTag (d : DType) : Local own d.cTag := by
  cases d <;> exact local_ofList (by decide)

theorem Slot.local_expr (s : Slot) : Local own s.expr := by
  cases s <;> exact ((local_ofList (by decide)).append (local_toString _)).append (local_ofList (by decide))

namespace Kernel

/-- The name of a buffer is not a numbered name here, as no underscore follows. -/
theorem local_loadExpr (d : DType) {buffer : String} {ds : List Char}
    (hbuffer : Reads own .outside buffer (.digits ds)) : Local own (loadExpr d buffer "i") := by
  have hopen : Local own ("(*(const " ++ d.cType ++ "*)((const char*)") :=
    ((local_ofList (by decide)).append d.local_cType).append (local_ofList (by decide))
  have hdata : Reads own (.digits ds) "->data + " .outside := reads_ofList (by decide) rfl
  have hname : Local own stridedOffsetName := by
    unfold stridedOffsetName
    exact local_ofList (by decide)
  have hcomma : Reads own (.digits ds) ", " .outside := reads_ofList (by decide) rfl
  have hload : Local own ("(*(const " ++ d.cType ++ "*)((const char*)" ++ buffer ++ "->data + ") :=
    Reads.append (Reads.append hopen hbuffer) hdata
  have hcall : Local own ("(*(const " ++ d.cType ++ "*)((const char*)" ++ buffer ++ "->data + " ++
      stridedOffsetName ++ "(" ++ buffer ++ ", ") :=
    Reads.append (Reads.append ((hload.append hname).append (local_ofList (by decide))) hbuffer) hcomma
  exact (hcall.append (local_ofList (by decide))).append (local_ofList (by decide))

theorem length_divisionGuards_le (c : Context) (op : BinaryOp) (d : DType) : (divisionGuards c op d).length ≤ 6 := by
  unfold divisionGuards
  split
  · split <;> simp [guardLines]
  · simp

theorem local_divisionGuards (hc : c.Numbered own) (op : BinaryOp) (d : DType) :
    ∀ line ∈ divisionGuards c op d, Local own line := by
  have hzero : Local own (c.fail divisionByZero) :=
    hc.fail (local_ofList (by decide)) (Source.unescaped_ofList (by decide))
  have hover : Local own (c.fail divisionOverflow) :=
    hc.fail (local_ofList (by decide)) (Source.unescaped_ofList (by decide))
  have hguard : ∀ {condition statement : String}, Local own condition → Local own statement →
      ∀ line ∈ guardLines condition statement, Local own line := by
    intro condition statement hcondition hstatement
    simp only [guardLines, List.forall_mem_cons, List.not_mem_nil, false_implies, implies_true, and_true]
    exact ⟨((local_ofList (by decide)).append hcondition).append (local_ofList (by decide)),
      (local_ofList (by decide)).append hstatement, local_ofList (by decide)⟩
  unfold divisionGuards
  split
  · refine List.forall_mem_append.2 ⟨hguard (local_ofList (by decide)) hzero, ?_⟩
    split
    · next least hleast =>
      refine hguard ((local_ofList (by decide)).append ?_) hover
      cases d <;> cases hleast <;> exact local_ofList (by decide)
    · simp
  · simp

theorem local_combineName (hc : c.Numbered own) : Local own (combineName c) :=
  (hc.name.append (local_ofList (by decide))).append (local_ofList (by decide))

/-- **The code of a kernel names its own application only.** -/
theorem exists_lines_code (hc : c.Numbered own) (k : Kernel) :
    ∃ lines, k.code c = Text.indented 12 lines ∧ lines.length ≤ 16 ∧ ∀ line ∈ lines, Local own line := by
  have hload : ∀ (d : DType) (buffer : String), buffer = "in0" ∨ buffer = "in1" →
      Local own (loadExpr d buffer "i") := by
    intro d buffer hbuffer
    rcases hbuffer with rfl | rfl <;> exact local_loadExpr d (reads_ofList (by decide) rfl)
  have hdst : ∀ d : DType, Local own (d.cType ++ "* dst = (" ++ d.cType ++ "*)out0->data;") := fun d =>
    ((d.local_cType.append (local_ofList (by decide))).append d.local_cType).append (local_ofList (by decide))
  cases k with
  | scale d =>
    refine ⟨_, rfl, by simp, ?_⟩
    simp only [List.forall_mem_cons, List.not_mem_nil, false_implies, implies_true, and_true]
    refine ⟨local_ofList (by decide), ?_, hdst d, local_ofList (by decide), ?_, local_ofList (by decide)⟩
    · exact ((((local_ofList (by decide)).append d.local_cType).append (local_ofList (by decide))).append
        d.local_cType).append (local_ofList (by decide))
    · exact ((((local_ofList (by decide)).append d.local_cType).append (local_ofList (by decide))).append
        (hload d _ (.inl rfl))).append (local_ofList (by decide))
  | reduceSum d =>
    have htotal : Local own (if d.isFloat then "double" else "int64_t") := by
      split <;> exact local_ofList (by decide)
    refine ⟨_, rfl, by simp, ?_⟩
    simp only [List.forall_mem_cons, List.not_mem_nil, false_implies, implies_true, and_true]
    refine ⟨local_ofList (by decide), htotal.append (local_ofList (by decide)), local_ofList (by decide), ?_,
      local_ofList (by decide), ?_⟩
    · exact ((((local_ofList (by decide)).append htotal).append (local_ofList (by decide))).append
        (hload d _ (.inl rfl))).append (local_ofList (by decide))
    · exact ((((local_ofList (by decide)).append d.local_cType).append (local_ofList (by decide))).append
        d.local_cType).append (local_ofList (by decide))
  | binary op d =>
    have hdiffer : Local own (c.fail extentsDiffer) :=
      hc.fail (local_ofList (by decide)) (Source.unescaped_ofList (by decide))
    have hvalue : ∀ {name : String} (buffer : String), Local own name → buffer = "in0" ∨ buffer = "in1" →
        Local own ("  const " ++ d.cType ++ name ++ loadExpr d buffer "i" ++ ";") := fun buffer hn hb =>
      ((((local_ofList (by decide)).append d.local_cType).append hn).append (hload d buffer hb)).append
        (local_ofList (by decide))
    have hlength := length_divisionGuards_le c op d
    refine ⟨_, rfl, ?_, List.forall_mem_append.2 ⟨List.forall_mem_append.2
      ⟨?_, local_divisionGuards hc op d⟩, ?_⟩⟩
    · simp only [List.length_append, List.length_cons, List.length_nil]
      omega
    · simp only [List.forall_mem_cons, List.not_mem_nil, false_implies, implies_true, and_true]
      exact ⟨local_ofList (by decide), (local_ofList (by decide)).append hdiffer, local_ofList (by decide),
        local_ofList (by decide), hdst d, local_ofList (by decide), hvalue _ (local_ofList (by decide)) (.inl rfl),
        hvalue _ (local_ofList (by decide)) (.inr rfl)⟩
    · simp only [List.forall_mem_cons, List.not_mem_nil, false_implies, implies_true, and_true]
      exact ⟨((local_ofList (by decide)).append (local_combineName hc)).append (local_ofList (by decide)),
        local_ofList (by decide)⟩
  | unary op d =>
    have hcall : ∀ {f : String}, Local own f →
        Local own (f ++ (if d = .f32 then "f" else "") ++ "(" ++ loadExpr d "in0" "i" ++ ")") := by
      intro f hf
      have hsuffix : Local own (if d = .f32 then "f" else "") := by
        split <;> exact local_ofList (by decide)
      exact (((hf.append hsuffix).append (local_ofList (by decide))).append (hload d _ (.inl rfl))).append
        (local_ofList (by decide))
    have hexpr : Local own (op.expr d (loadExpr d "in0" "i")) := by
      cases op with
      | neg =>
        exact ((local_ofList (by decide)).append (hload d _ (.inl rfl))).append (local_ofList (by decide))
      | abs => exact hcall (local_ofList (by decide))
      | exp => exact hcall (local_ofList (by decide))
      | log => exact hcall (local_ofList (by decide))
      | tanh => exact hcall (local_ofList (by decide))
      | sqrt => exact hcall (local_ofList (by decide))
    refine ⟨_, rfl, by simp, ?_⟩
    simp only [List.forall_mem_cons, List.not_mem_nil, false_implies, implies_true, and_true]
    exact ⟨local_ofList (by decide), hdst d, local_ofList (by decide),
      ((local_ofList (by decide)).append hexpr).append (local_ofList (by decide)), local_ofList (by decide)⟩

end Kernel

theorem Extent.local_like (rank : Nat) : ∀ e ∈ Extent.like 0 rank, Local own e.text := by
  intro e he
  obtain ⟨axis, -, rfl⟩ := List.mem_map.1 he
  have hin : Reads own .outside "in" .letter := reads_ofList (by decide) rfl
  have hdims : Reads own (.digits (toString 0).toList) "->dims[" .outside := reads_ofList (by decide) rfl
  exact (((hin.append (reads_number 0)).append hdims).append (local_toString axis)).append
    (local_ofList (by decide))

theorem Kernel.local_extents (k : Kernel) {index : Nat} {es : List Extent}
    (h : k.kind.extents c index = .ok es) : ∀ e ∈ es, Local own e.text := by
  have hfirst : Library.extentsOfFirst c = .ok es → ∀ e ∈ es, Local own e.text := by
    intro h
    unfold Library.extentsOfFirst at h
    split at h
    · cases h
    · cases h
      exact Extent.local_like _
  cases k with
  | reduceSum d => cases h; simp
  | scale d => exact hfirst h
  | binary op d => exact hfirst h
  | unary op d => exact hfirst h

namespace Module

theorem local_extentsDeclaration (index : Nat) {extents : List Extent} (h : ∀ e ∈ extents, Local own e.text) :
    Local own (extentsDeclaration index extents) := by
  unfold extentsDeclaration
  split
  · exact ((local_ofList (by decide)).append (local_toString index)).append (local_ofList (by decide))
  · have htexts : Local own (", ".intercalate (extents.map (·.text))) := by
      refine Text.local_intercalate (local_ofList (by decide)) fun s hs => ?_
      obtain ⟨e, he, rfl⟩ := List.mem_map.1 hs
      exact h e he
    exact ((((((local_ofList (by decide)).append (local_toString index)).append
      (local_ofList (by decide))).append (local_toString _)).append (local_ofList (by decide))).append
      htexts).append (local_ofList (by decide))

theorem exists_lines_outputPiece (hc : c.Numbered own) (index : Nat) {o : OutputPlan}
    (ho : ∀ e ∈ o.extents, Local own e.text) :
    ∃ lines, outputPiece c index o = .block 2 (Text.indented 16 lines) ∧ lines.length = 7 ∧
      ∀ line ∈ lines, Local own line := by
  have hfail : Local own (Source.escape (allocationFailure c index)) :=
    hc.failure ((local_ofList (by decide)).append (local_toString index))
      ((Source.unescaped_ofList (by decide)).append (Source.unescaped_of_isPart fun ch hch => by
        rw [Symbol.isPart, Text.isAlphanum_of_mem_toString hch, Bool.true_or]))
  refine ⟨_, rfl, rfl, ?_⟩
  simp only [List.forall_mem_cons, List.not_mem_nil, false_implies, implies_true, and_true]
  refine ⟨local_ofList (by decide), (local_ofList (by decide)).append (local_extentsDeclaration index ho), ?_,
    ((local_ofList (by decide)).append hfail).append (local_ofList (by decide)), local_ofList (by decide),
    local_ofList (by decide), ?_⟩
  · exact ((((((((local_ofList (by decide)).append o.slot.local_expr).append (local_ofList (by decide))).append
      o.desc.dtype.local_cTag).append (local_ofList (by decide))).append (local_toString _)).append
      (local_ofList (by decide))).append (local_toString _)).append (local_ofList (by decide))
  · exact ((((local_ofList (by decide)).append (local_toString _)).append (local_ofList (by decide))).append
      o.slot.local_expr).append (local_ofList (by decide))

theorem local_operand (index : Nat) (slot : Slot) :
    Local own ("    const fusejit_buffer* in" ++ toString index ++ " = " ++ slot.expr ++ ";") := by
  have hin : Reads own .outside "    const fusejit_buffer* in" .letter := reads_ofList (by decide) rfl
  have hset : Reads own (.digits (toString index).toList) " = " .outside := reads_ofList (by decide) rfl
  exact (((hin.append (reads_number index)).append hset).append slot.local_expr).append
    (local_ofList (by decide))

end Module

/-! ## Rows -/

namespace Piece

/-- The lines of a piece. -/
def rows (p : Piece) : List (List Char) :=
  match p.render with
  | .ok text => Text.lines text.toList
  | .error _ => []

/-- Every line of a piece has its end. -/
def Ended (p : Piece) : Prop := ∀ text, p.render = .ok text → Text.Ended text.toList

/-- The lines of pieces are those of each. -/
theorem lines_renderAll {ps : List Piece} {text : String} (h : renderAll ps = .ok text)
    (hps : ∀ p ∈ ps, p.Ended) : Text.Ended text.toList ∧ Text.lines text.toList = ps.flatMap rows := by
  induction ps generalizing text with
  | nil =>
    cases h
    exact ⟨.inl rfl, rfl⟩
  | cons p ps ih =>
    obtain ⟨head, hhead, h⟩ := Outcome.bind_eq_ok.1 h
    obtain ⟨rest, hrest, h⟩ := Outcome.bind_eq_ok.1 h
    cases h
    obtain ⟨hended, hlines⟩ := ih hrest fun q hq => hps q (by simp [hq])
    have hp := hps p (by simp) head hhead
    rw [String.toList_append]
    refine ⟨hp.append hended, ?_⟩
    rw [Text.lines_append hp, hlines, List.flatMap_cons, rows, hhead]

theorem ended_lines (ls : List String) : (lines ls).Ended := by
  intro text h
  cases h
  rw [Module.toList_lines]
  exact Text.ended_flatMap _

theorem rows_lines {ls : List String} (h : ∀ line ∈ ls, '\n' ∉ line.toList) :
    (lines ls).rows = ls.map fun line => Text.dropReturn line.toList := by
  show Text.lines (String.join (ls.map (· ++ "\n"))).toList = _
  rw [Module.toList_lines, Text.lines_flatMap (List.forall_mem_map.2 h), List.map_map]
  rfl

theorem rows_lines_eq {ls : List String} (h : ∀ line ∈ ls, '\n' ∉ line.toList ∧ '\r' ∉ line.toList) :
    (lines ls).rows = ls.map String.toList := by
  rw [rows_lines fun line hline => (h line hline).1]
  refine List.map_congr_left fun line hline => Text.dropReturn_eq_self fun hlast => ?_
  exact (h line hline).2 (List.mem_of_getLast? hlast)

theorem render_block {level : Nat} {text rendered : String} (h : (block level text).render = .ok rendered) :
    Text.reindent? level text.toList = some rendered.toList := by
  rw [render] at h
  cases hcs : Text.reindent? level text.toList with
  | none => rw [hcs] at h; cases h
  | some cs =>
    rw [hcs] at h
    cases h
    rw [String.toList_ofList]

theorem ended_block (level : Nat) (text : String) : (block level text).Ended := fun _ h =>
  (Text.lines_reindent? (render_block h)).1

/-- Pieces of whole lines that have a property, and how many they are at most. -/
structure Written (P : List Char → Prop) (height : Nat) (ps : List Piece) : Prop where
  ended : ∀ p ∈ ps, p.Ended
  each : ∀ row ∈ ps.flatMap rows, P row
  low : (ps.flatMap rows).length ≤ height

section

variable {P : List Char → Prop} {n n' : Nat} {ps qs : List Piece}

theorem written_nil : Written P 0 [] := ⟨by simp, by simp, Nat.le_refl 0⟩

theorem Written.append (h : Written P n ps) (h' : Written P n' qs) : Written P (n + n') (ps ++ qs) where
  ended := List.forall_mem_append.2 ⟨h.ended, h'.ended⟩
  each := by
    rw [List.flatMap_append]
    exact List.forall_mem_append.2 ⟨h.each, h'.each⟩
  low := by
    rw [List.flatMap_append, List.length_append]
    exact Nat.add_le_add h.low h'.low

theorem Written.mono (h : Written P n ps) (hn : n ≤ n') : Written P n' ps := ⟨h.ended, h.each, h.low.trans hn⟩

theorem written_flatMap {α : Type} {f : α → List Piece} {xs : List α} (h : ∀ x ∈ xs, Written P n (f x)) :
    Written P (n * xs.length) (xs.flatMap f) := by
  induction xs with
  | nil => exact written_nil
  | cons x xs ih =>
    rw [List.flatMap_cons, List.length_cons, Nat.mul_succ, Nat.add_comm]
    exact (h x (by simp)).append (ih fun y hy => h y (by simp [hy]))

theorem written_lines {ls : List String}
    (h : ∀ line ∈ ls, ('\n' ∉ line.toList ∧ '\r' ∉ line.toList) ∧ P line.toList) :
    Written P ls.length [lines ls] := by
  have hrows : [lines ls].flatMap rows = ls.map String.toList := by
    rw [List.flatMap_singleton, rows_lines_eq fun line hline => (h line hline).1]
  refine ⟨List.forall_mem_singleton.2 (ended_lines ls), ?_, ?_⟩
  · rw [hrows]
    exact List.forall_mem_map.2 fun line hline => (h line hline).2
  · rw [hrows, List.length_map]

/-- A block in the form in which blocks are written. -/
theorem written_block {level indent : Nat} {lines : List String} (h : ∀ l ∈ lines, '\n' ∉ l.toList)
    (hP : ∀ piece ∈ "" :: lines, ∀ row,
      Text.Placed level (List.replicate indent ' ' ++ piece.toList) row → P row) :
    Written P (lines.length + 2) [block level (Text.indented indent lines)] := by
  refine ⟨List.forall_mem_singleton.2 (ended_block level _), ?_, ?_⟩ <;> rw [List.flatMap_singleton, rows]
  · split
    · next text htext =>
      intro row hrow
      obtain ⟨piece, hpiece, hplaced⟩ := (Text.lines_indented h (render_block htext)).2.2 row hrow
      exact hP piece hpiece row hplaced
    · simp
  · split
    · next text htext => exact (Text.lines_indented h (render_block htext)).2.1
    · exact Nat.zero_le _

end

end Piece

namespace Module

/-- A line inside the block of an application: it is blank or further in than the braces of the block, it is
not a comment, and it names no other application. -/
structure Inner (position : Nat) (line : List Char) : Prop where
  deep : line = [] ∨ [' ', ' ', ' ', ' '] <+: line
  slash : '/' ∉ line
  names : ∀ other kind, (Symbol.application other kind).toList <:+: line → other = position

theorem toList_application (position : Nat) (kind : String) :
    ∃ rest, (Symbol.application position kind).toList = 'n' :: (toString position).toList ++ '_' :: rest :=
  ⟨(Symbol.sanitize kind).toList, by simp [Symbol.application]⟩

section

variable {position : Nat}

theorem eq_of_toString_eq {other : Nat} (h : (toString other).toList = (toString position).toList) :
    other = position := Nat.repr_inj.1 (String.toList_inj.1 h)

/-- A line that comes from a local one. -/
theorem inner_of_placed {level indent : Nat} {piece : String} {line : List Char}
    (h : Text.Placed level (List.replicate indent ' ' ++ piece.toList) line)
    (hpiece : Local (toString position).toList piece) (hdeep : line = [] ∨ [' ', ' ', ' ', ' '] <+: line) :
    Inner position line where
  deep := hdeep
  slash := by
    intro hmem
    rcases h.mem hmem with heq | hmem
    · exact absurd heq (by decide)
    · rcases List.mem_append.1 hmem with hmem | hmem
      · exact absurd (List.eq_of_mem_replicate hmem) (by decide)
      · exact absurd (hpiece.code _ hmem) (by decide)
  names := by
    intro other kind hname
    obtain ⟨rest, hrest⟩ := toList_application other kind
    rw [hrest] at hname
    exact eq_of_toString_eq (h.number_eq hpiece hname)

theorem unbroken_of_local {own : List Char} {s : String} (h : Local own s) :
    '\n' ∉ s.toList ∧ '\r' ∉ s.toList :=
  ⟨fun hmem => absurd (h.code _ hmem) (by decide), fun hmem => absurd (h.code _ hmem) (by decide)⟩

theorem written_inner_block {level indent : Nat} {lines : List String} (hlevel : 2 ≤ level)
    (h : ∀ line ∈ lines, Local (toString position).toList line) :
    Piece.Written (Inner position) (lines.length + 2) [.block level (Text.indented indent lines)] := by
  refine Piece.written_block (fun l hl => (unbroken_of_local (h l hl)).1) fun piece hpiece row hplaced => ?_
  refine inner_of_placed hplaced ?_ (hplaced.imp_right fun ⟨body, hbody, _⟩ => ?_)
  · rcases List.mem_cons.1 hpiece with rfl | hpiece
    · exact ⟨rfl, by simp⟩
    · exact h piece hpiece
  · obtain ⟨more, hmore⟩ := Nat.exists_eq_add_of_le (Nat.mul_le_mul_left 2 hlevel)
    rw [hbody, Text.padding, hmore, List.replicate_add, List.append_assoc]
    exact List.prefix_append _ _

theorem inner_of_local {s : String} (h : Local (toString position).toList s)
    (hdeep : [' ', ' ', ' ', ' '] <+: s.toList) : Inner position s.toList := by
  have hplaced : Text.Placed 0 (List.replicate 0 ' ' ++ s.toList) s.toList :=
    .inr ⟨s.toList, rfl, List.infix_refl _⟩
  exact inner_of_placed hplaced h (.inr hdeep)

theorem written_inner_lines {lines : List String}
    (h : ∀ line ∈ lines, Local (toString position).toList line ∧ [' ', ' ', ' ', ' '] <+: line.toList) :
    Piece.Written (Inner position) lines.length [.lines lines] :=
  Piece.written_lines fun line hline => ⟨unbroken_of_local (h line hline).1, inner_of_local (h line hline).1 (h line hline).2⟩

/-- What an application does before it computes. -/
theorem written_applicationOpening {plan : Plan} (hc : plan.context.Numbered (toString position).toList)
    (ho : ∀ o ∈ plan.outputs, ∀ e ∈ o.extents, Local (toString position).toList e.text) :
    Piece.Written (Inner position) (plan.inputs.length + 10 * plan.outputs.length + 1)
      (applicationOpening plan).tail := by
  have hdeep : ∀ {s t : String}, [' ', ' ', ' ', ' '] <+: s.toList → [' ', ' ', ' ', ' '] <+: (s ++ t).toList := by
    intro s t hs
    rw [String.toList_append]
    exact hs.trans (List.prefix_append _ _)
  have hinputs : Piece.Written (Inner position) plan.inputs.length [.lines (plan.inputs.mapIdx fun index slot =>
      "    const fusejit_buffer* in" ++ toString index ++ " = " ++ slot.expr ++ ";")] := by
    refine (written_inner_lines fun line hline => ?_).mono (by simp)
    obtain ⟨index, hindex, rfl⟩ := List.mem_mapIdx.1 hline
    exact ⟨local_operand index _, hdeep (hdeep (hdeep (hdeep (by decide))))⟩
  have hdeclared : Piece.Written (Inner position) plan.outputs.length
      [.lines (plan.outputs.mapIdx fun index _ => "    fusejit_buffer* out" ++ toString index ++ ";")] := by
    refine (written_inner_lines fun line hline => ?_).mono (by simp)
    obtain ⟨index, hindex, rfl⟩ := List.mem_mapIdx.1 hline
    exact ⟨((local_ofList (by decide)).append (local_toString index)).append (local_ofList (by decide)),
      hdeep (hdeep (by decide))⟩
  have houtputs : Piece.Written (Inner position) (9 * plan.outputs.length)
      (plan.outputs.mapIdx fun index o => outputPiece plan.context index o) := by
    have heach : ∀ piece ∈ plan.outputs.mapIdx fun index o => outputPiece plan.context index o,
        Piece.Written (Inner position) 9 [piece] := by
      intro piece hpiece
      obtain ⟨index, hindex, rfl⟩ := List.mem_mapIdx.1 hpiece
      obtain ⟨lines, heq, hlength, hlocal⟩ := exists_lines_outputPiece hc index (ho _ (List.getElem_mem hindex))
      rw [heq]
      exact (written_inner_block (Nat.le_refl 2) hlocal).mono (by omega)
    have hall := Piece.written_flatMap heach
    rwa [List.flatMap_singleton', List.length_mapIdx] at hall
  have hbrace : Piece.Written (Inner position) 1 [.lines ["    \x7b"]] :=
    written_inner_lines (List.forall_mem_singleton.2 ⟨local_ofList (by decide), by decide⟩)
  exact (((hinputs.append hdeclared).append houtputs).append hbrace).mono (by omega)

/-- The block of an application of a library kind. -/
theorem rows_applicationPieces {plan : Plan} {k : Kernel}
    (hc : plan.context.Numbered (toString position).toList) (hbody : plan.body = .kernel k)
    (ho : ∀ o ∈ plan.outputs, ∀ e ∈ o.extents, Local (toString position).toList e.text) :
    ∃ inner, (applicationPieces plan).flatMap Piece.rows =
        ("  " ++ marker plan.context.name).toList :: "  \x7b".toList :: inner ++ ["  \x7d".toList] ∧
      inner.length ≤ plan.inputs.length + 10 * plan.outputs.length + 20 ∧
      ∀ line ∈ inner, Inner position line := by
  have hhead : (Piece.lines ["  " ++ marker plan.context.name, "  \x7b"]).rows =
      [("  " ++ marker plan.context.name).toList, "  \x7b".toList] := by
    refine Piece.rows_lines_eq ?_
    obtain ⟨hnewline, hreturn⟩ := unbroken_of_local hc.name
    simp [marker, hnewline, hreturn]
  have htail : (Piece.lines ["    \x7d", "  \x7d"]).rows = ["    \x7d".toList] ++ ["  \x7d".toList] :=
    Piece.rows_lines_eq (by decide)
  have hopening : applicationOpening plan =
      .lines ["  " ++ marker plan.context.name, "  \x7b"] :: (applicationOpening plan).tail := rfl
  have hcode : Piece.Written (Inner position) 18 [bodyPiece plan] := by
    obtain ⟨lines, heq, hlength, hlocal⟩ := k.exists_lines_code hc
    rw [bodyPiece, hbody, Body.text, heq]
    exact (written_inner_block (by decide) hlocal).mono (by omega)
  have hwritten := (written_applicationOpening hc ho).append hcode
  have hbrace : Inner position "    \x7d".toList := inner_of_local (local_ofList (by decide)) (by decide)
  refine ⟨((applicationOpening plan).tail ++ [bodyPiece plan]).flatMap Piece.rows ++ ["    \x7d".toList], ?_, ?_, ?_⟩
  · rw [applicationPieces, List.flatMap_append, hopening, List.flatMap_cons, hhead, List.tail_cons]
    simp only [List.flatMap_append, List.flatMap_cons, List.flatMap_nil, List.append_nil, htail, List.cons_append,
      List.nil_append, List.append_assoc]
  · have hlow := hwritten.low
    simp only [List.length_append, List.length_cons, List.length_nil] at hlow ⊢
    omega
  · exact List.forall_mem_append.2 ⟨hwritten.each, List.forall_mem_singleton.2 hbrace⟩

end

end Module

end OpFusion
