/-
  Plain text: characters of one byte.

  A block of plain text can be moved to any level, so pieces of plain text can be written. A graph whose kinds write plain text, and whose global blocks depend on nothing, is a module if
  its applications are collected (`Assembly.assemble_of_plain`). The library kinds are such kinds
  (`Assembly.assemble_of_collect`).
-/
import OpFusion.Kind.Scripted
import OpFusion.Proofs.Exec.Application
import OpFusion.Proofs.Link
import OpFusion.Proofs.Source.Literal
import OpFusion.Proofs.Support
import OpFusion.Proofs.Symbol
import OpFusion.Proofs.Text.Blocks

namespace OpFusion

namespace Text

/-- Every character has one byte. -/
structure Plain (s : String) : Prop where
  utf8Size : ∀ c ∈ s.toList, c.utf8Size = 1

theorem plain_ofList {l : List Char} (h : (l.all fun c => c.utf8Size == 1) = true) :
    Plain (String.ofList l) := by
  refine ⟨fun c hc => ?_⟩
  rw [String.toList_ofList] at hc
  simpa using List.all_eq_true.1 h c hc

theorem plain_append {s t : String} : Plain (s ++ t) ↔ Plain s ∧ Plain t := by
  have hmem : ∀ c, c ∈ (s ++ t).toList ↔ c ∈ s.toList ∨ c ∈ t.toList := fun c => by
    rw [String.toList_append, List.mem_append]
  constructor
  · exact fun h => ⟨⟨fun c hc => h.utf8Size c ((hmem c).2 (Or.inl hc))⟩,
      ⟨fun c hc => h.utf8Size c ((hmem c).2 (Or.inr hc))⟩⟩
  · exact fun h => ⟨fun c hc => ((hmem c).1 hc).elim (h.1.utf8Size c) (h.2.utf8Size c)⟩

theorem Plain.append {s t : String} (hs : Plain s) (ht : Plain t) : Plain (s ++ t) :=
  plain_append.2 ⟨hs, ht⟩

theorem plain_join {l : List String} (h : ∀ s ∈ l, Plain s) : Plain (String.join l) := by
  refine ⟨fun c hc => ?_⟩
  rw [String.toList_join, List.mem_flatMap] at hc
  obtain ⟨s, hs, hc⟩ := hc
  exact (h s hs).utf8Size c hc

theorem plain_intercalate {separator : String} (hsep : Plain separator) {l : List String}
    (h : ∀ s ∈ l, Plain s) : Plain (separator.intercalate l) := by
  refine ⟨fun c hc => ?_⟩
  rcases mem_intercalate hc with hc | ⟨s, hs, hc⟩
  · exact hsep.utf8Size c hc
  · exact (h s hs).utf8Size c hc

theorem plain_replicate (n : Nat) : Plain (String.ofList (List.replicate n ' ')) := by
  refine ⟨fun c hc => ?_⟩
  rw [String.toList_ofList] at hc
  rw [List.eq_of_mem_replicate hc]
  decide

theorem utf8Size_of_isAlphanum {c : Char} (h : c.isAlphanum = true) : c.utf8Size = 1 := by
  have hle : c.val ≤ 0x7F := by
    simp only [Char.isAlphanum, Char.isAlpha, Char.isUpper, Char.isLower, Char.isDigit,
      Bool.or_eq_true, Bool.and_eq_true, decide_eq_true_eq] at h
    grind
  simp [Char.utf8Size, hle]

theorem plain_toString (n : Nat) : Plain (toString n) :=
  ⟨fun _ hc => utf8Size_of_isAlphanum (isAlphanum_of_mem_toString hc)⟩

/-- Lines of plain text, in the form in which blocks are written. -/
theorem plain_indented (indent : Nat) {lines : List String} (h : ∀ line ∈ lines, Plain line) :
    Plain (indented indent lines) := by
  have hpad := plain_replicate indent
  refine (Plain.append (plain_ofList (by decide)) (plain_join fun s hs => ?_)).append hpad
  obtain ⟨line, hline, rfl⟩ := List.mem_map.1 hs
  exact (hpad.append (h line hline)).append (plain_ofList (by decide))

end Text

/-! ## Pieces -/

namespace Piece

/-- A piece that can be written. -/
def Plain : Piece → Prop
  | verbatim _ => True
  | block _ text => Text.Plain text

theorem render_of_plain {p : Piece} (h : p.Plain) : ∃ text, p.render = .ok text := by
  cases p with
  | verbatim text => exact ⟨text, rfl⟩
  | block level text =>
    obtain ⟨cs, hcs⟩ := Text.reindent?_of_plain (Text.Plain.utf8Size h) level
    exact ⟨String.ofList cs, by rw [render, hcs]⟩

theorem renderAll_of_plain {ps : List Piece} (h : ∀ p ∈ ps, p.Plain) :
    ∃ text, renderAll ps = .ok text := by
  induction ps with
  | nil => exact ⟨"", rfl⟩
  | cons p ps ih =>
    obtain ⟨head, hhead⟩ := render_of_plain (h p (by simp))
    obtain ⟨rest, hrest⟩ := ih fun q hq => h q (by simp [hq])
    exact ⟨head ++ rest, by rw [renderAll, hhead, hrest]; rfl⟩

end Piece

/-! ## What library kinds write -/

open Text (Plain plain_append plain_ofList plain_toString plain_indented)

namespace Symbol

theorem utf8Size_of_isPart {c : Char} (h : isPart c = true) : c.utf8Size = 1 := by
  rcases (Bool.or_eq_true _ _).mp h with halnum | hunderscore
  · exact Text.utf8Size_of_isAlphanum halnum
  · rw [of_decide_eq_true hunderscore]
    decide

theorem plain_sanitize (s : String) : Plain (sanitize s) := by
  refine ⟨fun c hc => ?_⟩
  rw [sanitize, String.toList_ofList] at hc
  exact utf8Size_of_isPart (isPart_of_mem_sanitizeChars hc)

theorem plain_application (position : Nat) (kind : String) : Plain (application position kind) :=
  ⟨fun _ hc => utf8Size_of_isPart (isPart_of_mem_application hc)⟩

end Symbol

theorem Source.plain_escape {s : String} (h : Plain s) : Plain (escape s) := by
  refine ⟨fun c hc => ?_⟩
  rw [escape, String.toList_ofList, escapeChars, List.mem_flatMap] at hc
  obtain ⟨x, hx, hcx⟩ := hc
  rcases escapeChar_cases x with ⟨hsame, -⟩ | ⟨d, hform, hlookup⟩
  · obtain rfl : c = x := by simpa [hsame] using hcx
    exact h.utf8Size c hx
  · rw [hform] at hcx
    rcases List.mem_cons.1 hcx with rfl | hcx
    · decide
    · obtain rfl : c = d := by simpa using hcx
      exact (simpleForm_of_lookup hlookup).1

theorem Context.plain_fail {c : Context} (hc : Plain c.name) {message : String} (hm : Plain message) :
    Plain (c.fail message) :=
  ((plain_ofList (by decide)).append (Source.plain_escape
    ((hc.append (plain_ofList (by decide))).append hm))).append (plain_ofList (by decide))

theorem DType.plain_cType (d : DType) : Plain d.cType := by
  cases d <;> exact plain_ofList (by decide)

theorem DType.plain_cTag (d : DType) : Plain d.cTag := by
  cases d <;> exact plain_ofList (by decide)

namespace Kernel

variable {c : Context}

theorem plain_stridedOffsetName : Plain stridedOffsetName := by
  unfold stridedOffsetName
  exact plain_ofList (by decide)

theorem plain_loadExpr (d : DType) {buffer index : String} (hb : Plain buffer) (hi : Plain index) :
    Plain (loadExpr d buffer index) := by
  have hlit : Plain "->data + " := plain_ofList (by decide)
  exact ((((((((((plain_ofList (by decide)).append d.plain_cType).append
    (plain_ofList (by decide))).append hb).append hlit).append plain_stridedOffsetName).append
    (plain_ofList (by decide))).append hb).append (plain_ofList (by decide))).append hi).append
    (plain_ofList (by decide))

theorem plain_stridedOffset : Plain stridedOffsetBlock.code := by
  refine plain_indented 8 ?_
  simp only [List.forall_mem_cons, plain_append, plain_stridedOffsetName, List.not_mem_nil,
    false_implies, implies_true, and_true]
  and_intros <;> exact plain_ofList (by decide)

theorem plain_expr (op : BinaryOp) {lhs rhs : String} (hl : Plain lhs) (hr : Plain rhs) :
    Plain (op.expr lhs rhs) := by
  cases op <;>
  · simp only [BinaryOp.expr, plain_append, hl, hr, and_true]
    and_intros <;> exact plain_ofList (by decide)

theorem plain_combine (hc : Plain c.name) (op : BinaryOp) (d : DType) :
    Plain (combineBlock c op d).code := by
  have hname : Plain (combineName c) :=
    (hc.append (plain_ofList (by decide))).append (Symbol.plain_sanitize _)
  have hexpr : Plain (op.expr "lhs" "rhs") :=
    plain_expr op (plain_ofList (by decide)) (plain_ofList (by decide))
  refine plain_indented 12 ?_
  simp only [List.forall_mem_cons, plain_append, d.plain_cType, hname, hexpr, List.not_mem_nil,
    false_implies, implies_true, and_true]
  and_intros <;> exact plain_ofList (by decide)

theorem plain_divisionGuards (hc : Plain c.name) (op : BinaryOp) (d : DType) :
    ∀ line ∈ divisionGuards c op d, Plain line := by
  have hzero : Plain (c.fail divisionByZero) := Context.plain_fail hc (plain_ofList (by decide))
  have hover : Plain (c.fail divisionOverflow) := Context.plain_fail hc (plain_ofList (by decide))
  have hguard : ∀ {condition statement : String}, Plain condition → Plain statement →
      ∀ line ∈ guardLines condition statement, Plain line := by
    intro condition statement hcond hstat
    simp only [guardLines, List.forall_mem_cons, plain_append, hcond, hstat, List.not_mem_nil,
      false_implies, implies_true, and_true]
    and_intros <;> exact plain_ofList (by decide)
  unfold divisionGuards
  split
  · refine List.forall_mem_append.2 ⟨hguard (plain_ofList (by decide)) hzero, ?_⟩
    split
    · next least hleast =>
      refine hguard ((plain_ofList (by decide)).append ?_) hover
      cases d <;> cases hleast <;> exact plain_ofList (by decide)
    · simp
  · simp

/-- **The code of a kernel is plain** if the name of its application is. -/
theorem plain_code (hc : Plain c.name) (k : Kernel) : Plain (k.code c) := by
  have hload : ∀ (d : DType) {buffer : String}, Plain buffer → Plain (loadExpr d buffer "i") :=
    fun d _ hb => plain_loadExpr d hb (plain_ofList (by decide))
  have hin0 : Plain "in0" := plain_ofList (by decide)
  have hin1 : Plain "in1" := plain_ofList (by decide)
  cases k with
  | scale d =>
    refine plain_indented 12 ?_
    simp only [List.forall_mem_cons, plain_append, d.plain_cType, hload d hin0, List.not_mem_nil,
      false_implies, implies_true, and_true, true_and]
    and_intros <;> exact plain_ofList (by decide)
  | reduceSum d =>
    have htotal : Plain (if d.isFloat then "double" else "int64_t") := by
      split <;> exact plain_ofList (by decide)
    refine plain_indented 12 ?_
    simp only [List.forall_mem_cons, plain_append, d.plain_cType, hload d hin0, htotal,
      List.not_mem_nil, false_implies, implies_true, and_true, true_and]
    and_intros <;> exact plain_ofList (by decide)
  | binary op d =>
    have hname : Plain (combineName c) :=
      (hc.append (plain_ofList (by decide))).append (Symbol.plain_sanitize _)
    have hfail : Plain (c.fail extentsDiffer) := Context.plain_fail hc (plain_ofList (by decide))
    refine plain_indented 12 (List.forall_mem_append.2 ⟨List.forall_mem_append.2
      ⟨?_, plain_divisionGuards hc op d⟩, ?_⟩)
    · simp only [List.forall_mem_cons, plain_append, d.plain_cType, hload d hin0, hload d hin1, hfail,
        List.not_mem_nil, false_implies, implies_true, and_true, true_and]
      and_intros <;> exact plain_ofList (by decide)
    · simp only [List.forall_mem_cons, plain_append, hname, List.not_mem_nil, false_implies,
        implies_true, and_true]
      and_intros <;> exact plain_ofList (by decide)
  | unary op d =>
    have hcall : ∀ {f : String}, Plain f →
        Plain (f ++ (if d = .f32 then "f" else "") ++ "(" ++ loadExpr d "in0" "i" ++ ")") := by
      intro f hf
      have hsuffix : Plain (if d = .f32 then "f" else "") := by
        split <;> exact plain_ofList (by decide)
      exact (((hf.append hsuffix).append (plain_ofList (by decide))).append (hload d hin0)).append
        (plain_ofList (by decide))
    have hexpr : Plain (op.expr d (loadExpr d "in0" "i")) := by
      cases op with
      | neg => exact ((plain_ofList (by decide)).append (hload d hin0)).append (plain_ofList (by decide))
      | abs => exact hcall (plain_ofList (by decide))
      | exp => exact hcall (plain_ofList (by decide))
      | log => exact hcall (plain_ofList (by decide))
      | tanh => exact hcall (plain_ofList (by decide))
      | sqrt => exact hcall (plain_ofList (by decide))
    refine plain_indented 12 ?_
    simp only [List.forall_mem_cons, plain_append, d.plain_cType, hexpr, List.not_mem_nil,
      false_implies, implies_true, and_true, true_and]
    and_intros <;> exact plain_ofList (by decide)

end Kernel

theorem Slot.plain_expr (s : Slot) : Plain s.expr := by
  cases s <;>
    exact ((plain_ofList (by decide)).append (plain_toString _)).append (plain_ofList (by decide))

namespace Module

theorem plain_extentsDeclaration (index : Nat) {extents : List Extent}
    (h : ∀ e ∈ extents, Plain e.text) : Plain (extentsDeclaration index extents) := by
  unfold extentsDeclaration
  split
  · exact ((plain_ofList (by decide)).append (plain_toString index)).append (plain_ofList (by decide))
  · have htexts : Plain (", ".intercalate (extents.map (·.text))) := by
      refine Text.plain_intercalate (plain_ofList (by decide)) fun s hs => ?_
      obtain ⟨e, he, rfl⟩ := List.mem_map.1 hs
      exact h e he
    exact ((((((plain_ofList (by decide)).append (plain_toString index)).append
      (plain_ofList (by decide))).append (plain_toString _)).append (plain_ofList (by decide))).append
      htexts).append (plain_ofList (by decide))

theorem plain_outputPiece {c : Context} (hc : Plain c.name) (index : Nat) {o : OutputPlan}
    (ho : ∀ e ∈ o.extents, Plain e.text) : (outputPiece c index o).Plain := by
  have hfail : Plain (Source.escape (allocationFailure c index)) :=
    Source.plain_escape ((hc.append (plain_ofList (by decide))).append
      ((plain_ofList (by decide)).append (plain_toString index)))
  refine plain_indented 16 ?_
  simp only [List.forall_mem_cons, plain_append, plain_extentsDeclaration index ho, o.slot.plain_expr,
    o.desc.dtype.plain_cTag, plain_toString, hfail, List.not_mem_nil, false_implies, implies_true,
    and_true]
  and_intros <;> exact plain_ofList (by decide)

/-- The code of an application whose computation is plain can be written. -/
theorem plain_applicationPieces {plan : Plan} (hc : Plain plan.context.name)
    (hbody : Plain (plan.body.text plan.context))
    (ho : ∀ o ∈ plan.outputs, ∀ e ∈ o.extents, Plain e.text) :
    ∀ p ∈ applicationPieces plan, p.Plain := by
  have hlines : ∀ ls, (Piece.lines ls).Plain := fun _ => trivial
  have houtputs : ∀ p ∈ plan.outputs.mapIdx fun index o => outputPiece plan.context index o,
      p.Plain := by
    intro p hp
    obtain ⟨i, hi, rfl⟩ := List.mem_mapIdx.1 hp
    exact plain_outputPiece hc i (ho _ (List.getElem_mem hi))
  have hcode : (bodyPiece plan).Plain := hbody
  simp only [applicationPieces, applicationOpening, List.forall_mem_append, List.forall_mem_cons,
    List.not_mem_nil, false_implies, implies_true, and_true]
  exact ⟨⟨⟨⟨hlines _, hlines _, hlines _⟩, houtputs⟩, hlines _⟩, hcode, hlines _⟩

end Module

/-! ## Blocks without dependencies -/

namespace Support

/-- Blocks that depend on nothing have an order. -/
theorem ordered_of_after_eq_nil {blocks : SupportSet} (h : ∀ b ∈ blocks, b.after = [])
    (emitted : List String) :
    ∃ order, ordered blocks emitted = .ok order ∧ ∀ b ∈ order, b ∈ blocks := by
  have hfold : ∀ (rest order : List SupportBlock), (∀ b ∈ rest, b ∈ blocks) →
      (∀ b ∈ order, b ∈ blocks) →
      ∃ result, rest.foldlM (fun order block =>
          visit blocks emitted (blocks.length + 1) block [] order) order = .ok result ∧
        ∀ b ∈ result, b ∈ blocks := by
    intro rest
    induction rest with
    | nil => exact fun order _ horder => ⟨order, rfl, horder⟩
    | cons block rest ih =>
      intro order hrest horder
      have hafter := h block (hrest block (by simp))
      rw [List.foldlM_cons, visit]
      by_cases hid : block.id ∈ order.map (·.id)
      · rw [if_pos hid]
        exact ih order (fun b hb => hrest b (by simp [hb])) horder
      · rw [if_neg hid, if_neg (by simp), hafter]
        refine ih (order ++ [block]) (fun b hb => hrest b (by simp [hb])) fun b hb => ?_
        rcases List.mem_append.1 hb with hb | hb
        · exact horder b hb
        · rw [List.mem_singleton.1 hb]
          exact hrest block (by simp)
  exact hfold blocks [] (fun b hb => hb) (by simp)

end Support

/-! ## Kinds that write plain text -/

/-- A global block of plain code that depends on nothing. -/
structure SupportBlock.Simple (b : SupportBlock) : Prop where
  after : b.after = []
  code : Plain b.code

/-- A kind whose fragments are plain if the name of the application is. -/
structure OpKind.Plain (k : OpKind) : Prop where
  kindBlocks : ∀ b ∈ k.kindBlocks, b.Simple
  appBlocks : ∀ {c : Context} {blocks : List SupportBlock}, Text.Plain c.name →
    k.appBlocks c = .ok blocks → ∀ b ∈ blocks, b.Simple
  extents : ∀ {c : Context} {index : Nat} {es : List Extent}, k.extents c index = .ok es →
    ∀ e ∈ es, Text.Plain e.text
  body : ∀ {c : Context} {b : Body}, Text.Plain c.name → k.body c = .ok b → Text.Plain (b.text c)
  initCode : ∀ code ∈ k.link.initCode, Text.Plain code

theorem Extent.plain_like (rank : Nat) : ∀ e ∈ Extent.like 0 rank, Plain e.text := by
  intro e he
  obtain ⟨axis, -, rfl⟩ := List.mem_map.1 he
  exact ((((plain_ofList (by decide)).append (plain_toString 0)).append
    (plain_ofList (by decide))).append (plain_toString axis)).append (plain_ofList (by decide))

theorem Library.plain_extentsOfFirst {c : Context} {es : List Extent}
    (h : Library.extentsOfFirst c = .ok es) : ∀ e ∈ es, Plain e.text := by
  unfold extentsOfFirst at h
  split at h
  · cases h
  · cases h
    exact Extent.plain_like _

/-- The kinds of kernels write plain text. -/
theorem Kernel.plain_kind (k : Kernel) : k.kind.Plain where
  kindBlocks b hb := by
    obtain rfl : b = stridedOffsetBlock := by cases k <;> exact List.mem_singleton.1 hb
    exact ⟨rfl, plain_stridedOffset⟩
  appBlocks := by
    intro c blocks hc h b hb
    cases k with
    | binary op d =>
      cases h
      obtain rfl := List.mem_singleton.1 hb
      exact ⟨rfl, plain_combine hc op d⟩
    | scale d => cases h; cases hb
    | reduceSum d => cases h; cases hb
    | unary op d => cases h; cases hb
  extents := by
    intro c index es h
    cases k with
    | reduceSum d => cases h; simp
    | scale d => exact Library.plain_extentsOfFirst h
    | binary op d => exact Library.plain_extentsOfFirst h
    | unary op d => exact Library.plain_extentsOfFirst h
  body := by
    intro c b hc h
    rw [body_eq] at h
    cases h
    exact k.plain_code hc
  initCode := by cases k <;> simp [kind, Library.scale, Library.reduceSum, Library.binary, Library.unary]

theorem Script.orReject_eq_ok {α : Type} {error : Option String} {result x : α}
    (h : orReject error result = .ok x) : result = x := by
  unfold orReject at h
  split at h
  · cases h
  · exact Except.ok.inj h

/-- A script of plain fragments, none of which is for one application only. -/
structure Script.Plain (s : Script) : Prop where
  kindBlocks : ∀ b ∈ s.kindBlocks, b.Simple
  appBlocks : ∀ b ∈ s.appBlocks, b.owned = false ∧ b.block.Simple
  extents : ∀ texts ∈ s.extents.getD [], ∀ text ∈ texts, Text.Plain text
  body : ∀ c, Text.Plain (s.body.text c)
  initCode : ∀ code ∈ s.link.initCode, Text.Plain code

theorem Script.Plain.toKind {s : Script} (hs : s.Plain) : s.toKind.Plain where
  kindBlocks := hs.kindBlocks
  appBlocks := by
    intro c blocks _ h b hb
    rw [← orReject_eq_ok h] at hb
    obtain ⟨x, hx, rfl⟩ := List.mem_map.1 hb
    obtain ⟨howned, hsimple⟩ := hs.appBlocks x hx
    rw [ScriptedBlock.resolve, howned]
    exact hsimple
  extents := by
    intro c index es h
    rw [← orReject_eq_ok h, extentsOf]
    split
    · next lists hlists =>
      intro e he
      obtain ⟨text, htext, rfl⟩ := List.mem_map.1 he
      rw [Extent.text_ofText]
      rcases Nat.lt_or_ge index lists.length with hlt | hge
      · have hmem : lists.getD index [] ∈ s.extents.getD [] := by simp [hlists, hlt]
        exact hs.extents _ hmem text htext
      · simp [hge] at htext
    · exact Extent.plain_like _
  body := by
    intro c b _ h
    rw [← orReject_eq_ok h]
    exact hs.body c
  initCode := hs.initCode

/-! ## Graphs of such kinds -/

namespace Assembly

variable {g : Graph} {apps : List Application} {p p' : Progress}

theorem plain_context (position : Nat) (a : Application) : Plain (context g position a).name :=
  Symbol.plain_application position a.kind.name

/-- What applications of such kinds leave behind: simple blocks, and plain initialisation code. -/
structure Progress.Simple (p : Progress) : Prop where
  kindBlocks : ∀ b ∈ p.kindBlocks, b.Simple
  appBlocks : ∀ b ∈ p.appBlocks, b.Simple
  initCode : ∀ code ∈ p.link.initCode, Plain code

theorem Progress.Simple.add (h : p.Simple) {a : Application} (hk : a.kind.Plain)
    (hadd : p.add g a = .ok p') : p'.Simple := by
  obtain ⟨-, kindBlocks, symbols, blocks, appBlocks, symbols', outputs, body, hkind, hblocks, happ, -,
    -, rfl⟩ := add_eq_ok hadd
  refine ⟨fun b hb => ?_, fun b hb => ?_, fun code hcode => ?_⟩
  · exact ((Support.mem_insertAll hkind).1 hb).elim (h.kindBlocks b) (hk.kindBlocks b)
  · exact ((Support.mem_insertAll happ).1 hb).elim (h.appBlocks b)
      (hk.appBlocks (plain_context _ a) hblocks b)
  · exact (Link.mem_union.1 hcode).elim (h.initCode code) (hk.initCode code)

theorem simple_of_foldlM (hkinds : ∀ a ∈ apps, a.kind.Plain) (h : p.Simple)
    (hfold : apps.foldlM (Progress.add g) p = .ok p') : p'.Simple := by
  induction apps generalizing p with
  | nil => cases hfold; exact h
  | cons a apps ih =>
    rw [List.foldlM_cons] at hfold
    obtain ⟨q, hadd, hrest⟩ := Outcome.bind_eq_ok.1 hfold
    exact ih (fun b hb => hkinds b (by simp [hb])) (h.add (hkinds a (by simp)) hadd) hrest

theorem supportText_of_simple {blocks : SupportSet} (h : ∀ b ∈ blocks, b.Simple)
    (emitted : List String) : ∃ text, supportText blocks emitted = .ok text := by
  obtain ⟨order, horder, hmem⟩ := Support.ordered_of_after_eq_nil (fun b hb => (h b hb).after) emitted
  obtain ⟨text, htext⟩ : ∃ text, Piece.renderAll (order.flatMap Module.supportPieces) = .ok text := by
    refine Piece.renderAll_of_plain fun p hp => ?_
    obtain ⟨b, hb, hp⟩ := List.mem_flatMap.1 hp
    simp only [Module.supportPieces, List.mem_cons, List.not_mem_nil, or_false] at hp
    rcases hp with rfl | rfl | rfl
    · exact trivial
    · exact (h b (hmem b hb)).code
    · exact trivial
  exact ⟨text, by rw [supportText, horder]; exact htext⟩

theorem extents_of_planOutputs {a : Application} {c : Context} {vars : List Nat} {index : Nat}
    {outputs : List OutputPlan} (h : planOutputs g a c index vars = .ok outputs) :
    ∀ o ∈ outputs, ∃ i < index + vars.length, a.kind.extents c i = .ok o.extents := by
  induction vars generalizing index outputs with
  | nil =>
    cases h
    simp
  | cons v vars ih =>
    obtain ⟨o, ho, h⟩ := Outcome.bind_eq_ok.1 h
    obtain ⟨rest, hrest, h⟩ := Outcome.bind_eq_ok.1 h
    cases h
    obtain ⟨extents, hextents, -, rfl⟩ := planOutput_eq_ok ho
    intro o' ho'
    rw [List.length_cons]
    rcases List.mem_cons.1 ho' with rfl | ho'
    · exact ⟨index, by omega, hextents⟩
    · obtain ⟨i, hi, hextents'⟩ := ih hrest o' ho'
      exact ⟨i, by omega, hextents'⟩

theorem plain_entryPieces {plans : List Plan} {position : Nat} (h : Planned g position apps plans)
    (hkinds : ∀ a ∈ apps, a.kind.Plain) (inputs outputs temps : Nat) :
    ∀ p ∈ Module.entryPieces plans inputs outputs temps, p.Plain := by
  have happs : ∀ p ∈ plans.flatMap Module.applicationPieces, p.Plain := by
    intro p hp
    obtain ⟨plan, hplan, hp⟩ := List.mem_flatMap.1 hp
    obtain ⟨i, a, ha, hplaces⟩ := h.exists_places plan hplan
    have hk := hkinds a ha
    have hname : Plain plan.context.name := hplaces.context ▸ plain_context i a
    refine Module.plain_applicationPieces hname (hk.body hname hplaces.body) (fun o ho => ?_) p hp
    obtain ⟨index, -, hextents⟩ := extents_of_planOutputs hplaces.outputs o ho
    exact hk.extents hextents
  simp only [Module.entryPieces, List.forall_mem_append, List.forall_mem_cons, List.not_mem_nil,
    false_implies, implies_true, and_true]
  exact ⟨⟨trivial, happs⟩, trivial⟩

theorem plain_initPieces {code : List String} (h : ∀ c ∈ code, Plain c) :
    ∀ p ∈ Module.initPieces code, p.Plain := by
  unfold Module.initPieces
  split
  · simp
  · simp only [List.forall_mem_append, List.forall_mem_cons, List.not_mem_nil, false_implies,
      implies_true, and_true]
    refine ⟨⟨trivial, fun p hp => ?_⟩, trivial⟩
    obtain ⟨c, hc, hp⟩ := List.mem_flatMap.1 hp
    simp only [List.mem_cons, List.not_mem_nil, or_false] at hp
    rcases hp with rfl | rfl | rfl
    · exact trivial
    · exact h c hc
    · exact trivial

/-- **A graph of kinds that write plain text is a module if its applications are collected.** -/
theorem assemble_of_plain (hkinds : ∀ a ∈ g.applications, a.kind.Plain)
    (hok : (collect g).isOk = true) : ∃ m, assemble g = .ok m := by
  obtain ⟨p, hp⟩ := Outcome.isOk_iff.1 hok
  have hstart : Progress.start.Simple :=
    ⟨by simp [Progress.start], by simp [Progress.start], by simp [Progress.start]⟩
  have hsimple := simple_of_foldlM hkinds hstart hp
  obtain ⟨plans, hplanned, hplans⟩ := planned_of_foldlM hp
  have hplans : p.plans = plans := hplans
  obtain ⟨kindText, hkindText⟩ := supportText_of_simple hsimple.kindBlocks [Module.preludeId]
  obtain ⟨appText, happText⟩ := supportText_of_simple hsimple.appBlocks
    (Module.preludeId :: p.kindBlocks.map (·.id))
  obtain ⟨entry, hentry⟩ := Piece.renderAll_of_plain
    (plain_entryPieces hplanned hkinds g.inputs.length g.outputs.length g.tempCount)
  obtain ⟨init, hinit⟩ := Piece.renderAll_of_plain (plain_initPieces hsimple.initCode)
  have hglobals : globalText p = .ok (kindText ++ appText) := by
    rw [globalText, hkindText, happText]
    rfl
  obtain ⟨opening, hopening⟩ : ∃ text, Piece.renderAll
      [Module.header (g.bindings g.inputs) (g.bindings g.outputs) p.signatures p.link,
        Module.includes p.link.headers, Module.prelude] = .ok text := by
    refine Piece.renderAll_of_plain ?_
    simp only [List.forall_mem_cons, List.not_mem_nil, false_implies, implies_true, and_true]
    exact ⟨trivial, trivial, trivial⟩
  rw [← hplans] at hentry
  rw [assemble, hp]
  show ∃ m, (parts g p >>= fun parts => _) = .ok m
  rw [parts, hopening, hglobals, hentry, hinit]
  exact ⟨_, rfl⟩

theorem assemble_of_collect (hkinds : ∀ a ∈ g.applications, ∃ k : Kernel, a.kind = k.kind)
    (hok : (collect g).isOk = true) : ∃ m, assemble g = .ok m := by
  refine assemble_of_plain (fun a ha => ?_) hok
  obtain ⟨k, hk⟩ := hkinds a ha
  rw [hk]
  exact k.plain_kind

end Assembly

/-- The graph of one application of a scripted kind, without operands and with a scalar as its result. -/
def Script.alone (s : Script) : Graph where
  name := s.name
  vars := [⟨.i64, 0⟩]
  applications := [⟨s.toKind, [], [0]⟩]
  inputs := []
  outputs := [0]

theorem Script.finished_alone (s : Script) : s.alone.Finished := by
  have hbuilt : GraphBuilder.Built _ :=
    @GraphBuilder.Built.apply _ _ s.toKind [] _ [⟨.i64, 0⟩] (.new s.name) rfl
  exact ⟨_, [0], hbuilt, rfl⟩

theorem Script.Plain.assemble_alone {s : Script} (h : s.Plain)
    (hok : (Assembly.collect s.alone).isOk = true) : ∃ m, Assembly.assemble s.alone = .ok m := by
  refine Assembly.assemble_of_plain (fun a ha => ?_) hok
  rw [List.mem_singleton.1 ha]
  exact h.toKind

/-- A kind without operands that makes a scalar. -/
def Script.tick (version : Option Version) (reentrant : Bool) (initCode : List String) (body : Body) :
    Script where
  name := "tick"
  version
  extents := some [[]]
  body
  link := { initCode }
  reentrant

/-- What the graph of such a kind collects. -/
def Script.ticked (version : Option Version) (reentrant : Bool) (initCode : List String) (body : Body) :
    Assembly.Progress :=
  { Assembly.Progress.start with
    link := Link.merge {} { initCode }
    reentrant
    signatures := [⟨Symbol.application 0 "tick", "tick", "", version, [], [⟨0, .i64, 0⟩]⟩]
    plans := [{
      context := ⟨Symbol.application 0 "tick", [], [⟨.i64, 0⟩]⟩
      inputs := []
      outputs := [⟨.output 0, ⟨.i64, 0⟩, []⟩]
      body }] }

section

variable {version : Option Version} {reentrant : Bool} {initCode : List String} {body : Body}

theorem Script.collect_tick : Assembly.collect (tick version reentrant initCode body).alone =
    .ok (ticked version reentrant initCode body) := rfl

theorem Script.assemble_tick (hinit : ∀ code ∈ initCode, Text.Plain code)
    (hbody : ∀ c, Text.Plain (body.text c)) :
    ∃ m, Assembly.assemble (tick version reentrant initCode body).alone = .ok m :=
  Script.Plain.assemble_alone
    ⟨by simp [tick], by simp [tick], by simp [tick], hbody, hinit⟩ (by rw [collect_tick]; rfl)

end

end OpFusion
