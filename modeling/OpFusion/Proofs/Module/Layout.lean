/-
  The lines of a module of library kinds.

  No line but the first of a block is the marker of an application (`Module.Clear`): not in the header, whose
  lines begin with a star, nor in the prelude and the global code, where a comment shows the identity of a
  block, nor in the entry function. So the lines of a module are some before the blocks, the blocks one
  after another, and some after them (`Module.LaidOut`), and their number is at most linear in that of the
  applications.
-/
import OpFusion.Proofs.Module.Blocks

namespace OpFusion

open Text (Local Reads local_ofList reads_ofList local_toString)

namespace Module

variable {line : List Char} {own : List Char}

/-! ## Lines that mark no application -/

/-- A line that is not the marker of an application of a library kind. -/
def Clear (line : List Char) : Prop :=
  ∀ (position : Nat) (k : Kernel), Text.trim line ≠ (marker (Symbol.application position k.kind.name)).toList

theorem toList_marker (name : String) :
    (marker name).toList = '/' :: '*' :: ' ' :: (name.toList ++ [' ', '*', '/']) := by
  simp [marker]

theorem clear_of_notMem (h : '/' ∉ line ∨ '*' ∉ line) : Clear line := by
  intro position k heq
  have hmem : ∀ c ∈ (marker (Symbol.application position k.kind.name)).toList, c ∈ line := fun c hc =>
    (Text.trim_isInfix line).subset (heq ▸ hc)
  rw [toList_marker] at hmem
  exact h.elim (· (hmem '/' (by simp))) (· (hmem '*' (by simp)))

/-- A line that begins with a star is no marker. -/
theorem clear_of_star (rest : List Char) : Clear (' ' :: '*' :: rest) := by
  intro position k heq
  have hstarts := Text.trimEnd_isPrefix (Text.trimStart (' ' :: '*' :: rest))
  rw [← Text.trim, heq, toList_marker, show Text.trimStart (' ' :: '*' :: rest) = '*' :: rest from rfl] at hstarts
  exact absurd (List.cons_prefix_cons.1 hstarts).1 (by decide)

theorem trim_marker (indent : Nat) (name : String) :
    Text.trim (List.replicate indent ' ' ++ (marker name).toList) = (marker name).toList := by
  have hblank : ∀ c ∈ List.replicate indent ' ', Text.isBlank c = true := fun c hc => by
    rw [List.eq_of_mem_replicate hc]
    decide
  have hstart : Text.trimStart (List.replicate indent ' ' ++ (marker name).toList) = (marker name).toList := by
    rw [Text.trimStart, List.dropWhile_append_of_pos hblank, toList_marker]
    rfl
  have hreverse : (marker name).toList.reverse = '/' :: '*' :: ' ' :: (name.toList.reverse ++ [' ', '*', '/']) := by
    simp [toList_marker]
  have hend : (marker name).toList.reverse.dropWhile Text.isBlank = (marker name).toList.reverse := by
    rw [hreverse]
    rfl
  rw [Text.trim, hstart, Text.trimEnd, hend, List.reverse_reverse]

theorem marker_inj {name name' : String} (h : (marker name).toList = (marker name').toList) : name = name' := by
  simpa [toList_marker, String.toList_inj] using h

/-- A comment with the identity of a block is no marker if the identity is not the name of an application. -/
theorem clear_blockComment {id : String} (hid : Source.commentText id = id)
    (h : ∀ (position : Nat) (k : Kernel), id ≠ Symbol.application position k.kind.name) :
    Clear (blockComment id).toList := by
  intro position k heq
  rw [blockComment, hid] at heq
  have htrim := trim_marker 0 id
  exact h position k (marker_inj (htrim.symm.trans heq))

theorem clear_of_local {s : String} (h : Local own s) : Clear s.toList :=
  clear_of_notMem (.inl fun hmem => absurd (h.code _ hmem) (by decide))

theorem written_clear_lines {lines : List String} (h : ∀ line ∈ lines, Local [] line) :
    Piece.Written Clear lines.length [.lines lines] :=
  Piece.written_lines fun line hline => ⟨unbroken_of_local (h line hline), clear_of_local (h line hline)⟩

/-! ## Global code -/

/-- A line of code in which no comment begins. -/
def Uncommented (line : String) : Prop := '\n' ∉ line.toList ∧ ('/' ∉ line.toList ∨ '*' ∉ line.toList)

theorem uncommented_of_local {s : String} (h : Local own s) : Uncommented s :=
  ⟨(unbroken_of_local h).1, .inl fun hmem => absurd (h.code _ hmem) (by decide)⟩

theorem written_clear_block {level indent : Nat} {lines : List String} (h : ∀ line ∈ lines, Uncommented line) :
    Piece.Written Clear (lines.length + 2) [.block level (Text.indented indent lines)] := by
  refine Piece.written_block (fun l hl => (h l hl).1) fun piece hpiece row hplaced => ?_
  have hmem : ∀ c ∈ row, c = ' ' ∨ c ∈ piece.toList := by
    intro c hc
    refine (hplaced.mem hc).elim .inl fun hc => ?_
    rcases List.mem_append.1 hc with hc | hc
    · exact .inl (List.eq_of_mem_replicate hc)
    · exact .inr hc
  have hnot : '/' ∉ piece.toList ∨ '*' ∉ piece.toList := by
    rcases List.mem_cons.1 hpiece with rfl | hpiece
    · exact .inl (by simp)
    · exact (h piece hpiece).2
  exact clear_of_notMem (hnot.imp (fun hn hc => (hmem _ hc).elim (by decide) hn)
    fun hn hc => (hmem _ hc).elim (by decide) hn)

theorem written_supportPieces {b : SupportBlock} {indent : Nat} {lines : List String}
    (hcode : b.code = Text.indented indent lines) (hid : Source.commentText b.id = b.id) (hreturn : '\r' ∉ b.id.toList)
    (hname : ∀ (position : Nat) (k : Kernel), b.id ≠ Symbol.application position k.kind.name)
    (hlines : ∀ line ∈ lines, Uncommented line) :
    Piece.Written Clear (lines.length + 4) (supportPieces b) := by
  have hcomment : Piece.Written Clear 1 [.lines [blockComment b.id]] := by
    refine Piece.written_lines (List.forall_mem_singleton.2 ⟨?_, clear_blockComment hid hname⟩)
    have hnewline := Source.newline_notMem_commentText b.id
    rw [hid] at hnewline
    simp [blockComment, hid, hnewline, hreturn]
  have hblock : Piece.Written Clear (lines.length + 2) [.block 0 b.code] := by
    rw [hcode]
    exact written_clear_block hlines
  have hblank : Piece.Written Clear 1 [.lines [""]] :=
    written_clear_lines (List.forall_mem_singleton.2 (local_ofList (by decide)))
  exact ((hcomment.append hblock).append hblank).mono (by omega)

theorem commentText_eq_self {s : String} (hstar : '*' ∉ s.toList) (hnewline : '\n' ∉ s.toList) :
    Source.commentText s = s := by
  rw [Source.commentText, Source.commentChars_eq_self hstar hnewline, String.ofList_toList]

theorem written_stridedOffset : Piece.Written Clear 15 (supportPieces Kernel.stridedOffsetBlock) := by
  refine Piece.Written.mono (written_supportPieces rfl (commentText_eq_self (by decide) (by decide)) (by decide)
    (fun position k heq => ?_) ?_) (Nat.le_refl 15)
  · obtain ⟨rest, hrest⟩ := toList_application position k.kind.name
    rw [← heq] at hrest
    exact absurd (List.cons.inj hrest).1 (by decide)
  · have hlocal : ∀ {s : String}, Local [] s → Uncommented s := uncommented_of_local
    simp only [List.forall_mem_cons, List.not_mem_nil, false_implies, implies_true, and_true]
    refine ⟨hlocal (((local_ofList (by decide)).append (local_ofList (by decide))).append (local_ofList (by decide))),
      hlocal (local_ofList (by decide)), hlocal (local_ofList (by decide)), hlocal (local_ofList (by decide)),
      hlocal (local_ofList (by decide)), hlocal (local_ofList (by decide)), ⟨by decide, .inr (by decide)⟩,
      hlocal (local_ofList (by decide)), hlocal (local_ofList (by decide)), hlocal (local_ofList (by decide)),
      hlocal (local_ofList (by decide))⟩

/-- A symbol of an application is not the name of an application: no kind is called so. -/
theorem combineName_ne {c : Context} {position : Nat} {k : Kernel}
    (hc : c.name = Symbol.application position k.kind.name) (other : Nat) (k' : Kernel) :
    Kernel.combineName c ≠ Symbol.application other k'.kind.name := by
  intro heq
  have hdigits : ∀ n : Nat, '_' ∉ (toString n).toList := fun n hmem =>
    absurd (Text.isDigit_of_mem_toString hmem) (by decide)
  have hchars := congrArg String.toList heq
  simp only [Kernel.combineName, Context.symbol, Symbol.owned, hc, Symbol.application, String.toList_append,
    List.append_assoc] at hchars
  obtain ⟨-, hkinds⟩ := Text.append_cons_inj_first (hdigits position) (hdigits other) (List.cons.inj hchars).2
  have hne : ∀ kind ∈ Kernel.kindNames, ∀ kind' ∈ Kernel.kindNames,
      (Symbol.sanitize kind).toList ++ ("_".toList ++ (Symbol.sanitize "combine").toList) ≠
        (Symbol.sanitize kind').toList := by
    decide +kernel
  exact hne _ k.name_mem_kindNames _ k'.name_mem_kindNames hkinds

theorem isPart_of_mem_combineName {c : Context} {position : Nat} {k : Kernel}
    (hc : c.name = Symbol.application position k.kind.name) :
    ∀ ch ∈ (Kernel.combineName c).toList, Symbol.isPart ch = true := by
  intro ch hch
  simp only [Kernel.combineName, Context.symbol, Symbol.owned, hc, String.toList_append, List.mem_append] at hch
  rcases hch with (hch | hch) | hch
  · exact Symbol.isPart_of_mem_application hch
  · rw [List.mem_singleton.1 hch]
    decide
  · rw [Symbol.sanitize, String.toList_ofList] at hch
    exact Symbol.isPart_of_mem_sanitizeChars hch

theorem written_combine {c : Context} {position : Nat} {k : Kernel}
    (hc : c.name = Symbol.application position k.kind.name) (op : BinaryOp) (d : DType) :
    Piece.Written Clear 7 (supportPieces (Kernel.combineBlock c op d)) := by
  have hname := Kernel.local_combineName (Context.numbered hc)
  have hpart := isPart_of_mem_combineName hc
  have hdefine : Uncommented ("static inline " ++ d.cType ++ " " ++ Kernel.combineName c ++ "(" ++ d.cType ++
      " lhs, " ++ d.cType ++ " rhs) \x7b") :=
    uncommented_of_local ((((((((local_ofList (by decide)).append d.local_cType).append
      (local_ofList (by decide))).append hname).append (local_ofList (by decide))).append d.local_cType).append
      (local_ofList (by decide))).append d.local_cType |>.append (local_ofList (by decide)))
  have hreturn : Uncommented ("  return (" ++ d.cType ++ ")(" ++ op.expr "lhs" "rhs" ++ ");") := by
    have hexpr : Uncommented (op.expr "lhs" "rhs") := by
      cases op <;> simp [Uncommented, BinaryOp.expr]
    have htype : Local [] d.cType := d.local_cType
    have hslash : '/' ∉ d.cType.toList := fun hmem => absurd (htype.code _ hmem) (by decide)
    have hstar : '*' ∉ d.cType.toList := by cases d <;> simp [DType.cType]
    simpa [Uncommented, (unbroken_of_local htype).1, hslash, hstar] using hexpr
  refine Piece.Written.mono (written_supportPieces rfl (commentText_eq_self ?_ ?_) ?_ (combineName_ne hc) ?_)
    (Nat.le_refl 7)
  · exact fun hmem => absurd (hpart _ hmem) (by decide)
  · exact (unbroken_of_local hname).1
  · exact (unbroken_of_local hname).2
  · simp only [List.forall_mem_cons, List.not_mem_nil, false_implies, implies_true, and_true]
    exact ⟨hdefine, hreturn, ⟨by decide, .inl (by decide)⟩⟩

/-! ## The opening -/

theorem length_headerLines_le (inputs outputs : List Binding) (signatures : List Signature) (link : Link) :
    (headerLines inputs outputs signatures link).length ≤ signatures.length + 10 := by
  have hline : ∀ (label : String) (values : List String), (linkLine label values).length ≤ 1 := by
    intro label values
    unfold linkLine
    split <;> simp
  have hheaders := hline "headers" link.headers
  have hlibraries := hline "libraries" link.libraries
  have hlibDirs := hline "lib_dirs" link.libDirs
  have hincludeDirs := hline "include_dirs" link.includeDirs
  have hcompileFlags := hline "compile_flags" link.compileFlags
  have hlinkFlags := hline "link_flags" link.linkFlags
  simp only [headerLines, linkLines, List.length_append, List.length_cons, List.length_nil, List.length_map]
  omega

theorem written_header (inputs outputs : List Binding) (signatures : List Signature) (link : Link) :
    Piece.Written Clear (signatures.length + 12) [header inputs outputs signatures link] := by
  have hnewline : ∀ l ∈ headerLines inputs outputs signatures link ++ [" */", ""], '\n' ∉ l.toList := by
    refine List.forall_mem_append.2 ⟨fun l hl => ?_, by decide⟩
    rcases mem_headerLines hl with rfl | ⟨text, rfl, htext⟩
    · decide
    · simpa using htext
  have hstar : ∀ text : String, Clear (Text.dropReturn (" * " ++ text).toList) := by
    intro text
    rw [String.toList_append, Text.dropReturn]
    split
    · exact clear_of_star _
    · exact clear_of_star _
  have hfirst : Clear (Text.dropReturn "/* fusejit generated module".toList) := by
    intro position k heq
    obtain ⟨rest, hrest⟩ := toList_application position k.kind.name
    have htrim : Text.trim (Text.dropReturn "/* fusejit generated module".toList) =
        "/* fusejit generated module".toList := by decide +kernel
    rw [toList_marker, hrest, htrim] at heq
    simp at heq
  have hrows := Piece.rows_lines hnewline
  refine ⟨List.forall_mem_singleton.2 (Piece.ended_lines _), ?_, ?_⟩ <;>
    rw [List.flatMap_singleton, header_eq, hrows]
  · rw [List.forall_mem_map]
    refine List.forall_mem_append.2 ⟨fun l hl => ?_, ?_⟩
    · rcases mem_headerLines hl with rfl | ⟨text, rfl, -⟩
      · exact hfirst
      · exact hstar text
    · simp only [List.forall_mem_cons, List.not_mem_nil, false_implies, implies_true, and_true]
      exact ⟨clear_of_star ['/'], clear_of_notMem (.inl (by decide))⟩
  · rw [List.length_map, List.length_append]
    exact Nat.add_le_add_right (length_headerLines_le inputs outputs signatures link) 2

theorem includes_eq (headers : List String) : includes headers =
    .lines ((standardHeaders ++ headers.filter (· ∉ standardHeaders)).map includeLine ++ [""]) := by
  unfold includes Piece.lines
  refine congrArg Piece.verbatim (String.toList_inj.1 ?_)
  simp [String.toList_join, Function.comp_def]

theorem written_includes {headers : List String} (h : headers = [] ∨ headers = ["math.h"]) :
    Piece.Written Clear 5 [includes headers] := by
  have hmem : ∀ header ∈ standardHeaders ++ headers.filter (· ∉ standardHeaders),
      header ∈ standardHeaders ++ ["math.h"] := by
    rcases h with rfl | rfl <;> decide
  have hline : ∀ header ∈ standardHeaders ++ ["math.h"], includeLine header = "#include <" ++ header ++ ">" := by
    decide +kernel
  have hlocal : ∀ header ∈ standardHeaders ++ ["math.h"], Local [] header := by
    simp only [standardHeaders, List.cons_append, List.nil_append, List.forall_mem_cons, List.not_mem_nil,
      false_implies, implies_true, and_true]
    exact ⟨local_ofList (by decide), local_ofList (by decide), local_ofList (by decide), local_ofList (by decide)⟩
  rw [includes_eq]
  refine (written_clear_lines (List.forall_mem_append.2
    ⟨List.forall_mem_map.2 fun header hheader => ?_, ?_⟩)).mono ?_
  · rw [hline header (hmem header hheader)]
    exact ((local_ofList (by decide)).append (hlocal header (hmem header hheader))).append (local_ofList (by decide))
  · exact List.forall_mem_singleton.2 (local_ofList (by decide))
  · rcases h with rfl | rfl <;> decide

theorem local_tagLine (d : DType) : Local [] (tagLine d) :=
  ((((local_ofList (by decide)).append d.local_cTag).append (local_ofList (by decide))).append
    (local_toString _)).append (local_ofList (by decide))

theorem written_prelude : Piece.Written Clear 100 [prelude] := by
  refine (written_clear_lines (List.forall_mem_append.2 ⟨?_, ?_⟩)).mono (by decide)
  · exact List.forall_mem_map.2 fun d _ => local_tagLine d
  · simp only [List.forall_mem_cons, List.not_mem_nil, false_implies, implies_true, and_true]
    and_intros <;> exact local_ofList (by decide)

/-! ## The entry function -/

theorem written_entryOpening (inputs outputs temps : Nat) :
    Piece.Written Clear 14 [entryOpening inputs outputs temps] := by
  have htemps : ∀ line ∈ tempsLines temps, Local [] line := by
    unfold tempsLines
    split
    · simp
    · exact List.forall_mem_singleton.2
        (((local_ofList (by decide)).append (local_toString temps)).append (local_ofList (by decide)))
  have hentry : Local [] entrySymbol := by
    unfold entrySymbol
    exact local_ofList (by decide)
  have hcount : Local [] (countFailure inputs outputs) :=
    ((((local_ofList (by decide)).append (local_toString inputs)).append (local_ofList (by decide))).append
      (local_toString outputs)).append (local_ofList (by decide))
  refine (written_clear_lines (List.forall_mem_append.2 ⟨List.forall_mem_append.2 ⟨?_, htemps⟩, ?_⟩)).mono ?_
  · simp only [List.forall_mem_cons, List.not_mem_nil, false_implies, implies_true, and_true]
    exact ⟨((local_ofList (by decide)).append hentry).append (local_ofList (by decide)), local_ofList (by decide),
      local_ofList (by decide), local_ofList (by decide), local_ofList (by decide), local_ofList (by decide),
      local_ofList (by decide)⟩
  · simp only [List.forall_mem_cons, List.not_mem_nil, false_implies, implies_true, and_true]
    refine ⟨?_, ((local_ofList (by decide)).append hcount).append (local_ofList (by decide)),
      local_ofList (by decide), local_ofList (by decide), local_ofList (by decide), local_ofList (by decide)⟩
    exact ((((local_ofList (by decide)).append (local_toString inputs)).append (local_ofList (by decide))).append
      (local_toString outputs)).append (local_ofList (by decide))
  · unfold tempsLines
    split <;> simp

/-- What follows the last application. -/
theorem written_entryClosing (temps : Nat) : Piece.Written Clear 9
    [.lines (["fusejit_cleanup:"] ++ cleanupLines temps ++ ["  return fusejit_status;", "\x7d", ""])] := by
  have hcleanup : ∀ line ∈ cleanupLines temps, Local [] line := by
    unfold cleanupLines
    split
    · simp
    · simp only [List.forall_mem_cons, List.not_mem_nil, false_implies, implies_true, and_true]
      exact ⟨((local_ofList (by decide)).append (local_toString temps)).append (local_ofList (by decide)),
        local_ofList (by decide), local_ofList (by decide), local_ofList (by decide), local_ofList (by decide)⟩
  refine (written_clear_lines (List.forall_mem_append.2 ⟨List.forall_mem_append.2 ⟨?_, hcleanup⟩, ?_⟩)).mono ?_
  · exact List.forall_mem_singleton.2 (local_ofList (by decide))
  · simp only [List.forall_mem_cons, List.not_mem_nil, false_implies, implies_true, and_true]
    exact ⟨local_ofList (by decide), local_ofList (by decide), local_ofList (by decide)⟩
  · unfold cleanupLines
    split <;> simp

theorem written_abi : Piece.Written Clear 1 [abiPiece] := by
  have hsymbol : Reads [] .outside abiSymbol .letter := by
    unfold abiSymbol
    exact reads_ofList (by decide) rfl
  have hopen : Reads [] .letter "(void) \x7b return " .outside := reads_ofList (by decide) rfl
  have hexport : Local [] "FUSEJIT_EXPORT uint32_t " := local_ofList (by decide)
  have hhead : Local [] ("FUSEJIT_EXPORT uint32_t " ++ abiSymbol ++ "(void) \x7b return ") :=
    Reads.append (Reads.append hexport hsymbol) hopen
  exact written_clear_lines (List.forall_mem_singleton.2
    ((hhead.append (local_toString abiVersion)).append (local_ofList (by decide))))

end Module

/-! ## What the kinds ask for -/

theorem Support.length_insertAll_le {blocks blocks' new : SupportSet} {table table' : SymbolTable} {owner : String}
    (h : insertAll blocks table owner new = .ok (blocks', table')) :
    blocks'.length ≤ blocks.length + new.length := by
  induction new generalizing blocks table with
  | nil =>
    cases h
    exact Nat.le_refl _
  | cons block new ih =>
    rw [insertAll] at h
    split at h
    · next blocks₁ table₁ hinsert =>
      have hstep : blocks₁.length ≤ blocks.length + 1 := by
        rcases insert_eq_ok hinsert with ⟨-, rfl, -⟩ | ⟨-, rfl, -⟩ <;> simp
      have hrest := ih h
      rw [List.length_cons]
      omega
    · cases h

namespace Assembly

variable {g : Graph} {apps : List Application} {p q : Progress} {m : Module}

/-- What applications of library kinds leave behind: one header at most, nothing to run first, and two blocks at
most for each application. -/
structure Progress.OfLibrary (p : Progress) : Prop where
  headers : p.link.headers = [] ∨ p.link.headers = ["math.h"]
  initCode : p.link.initCode = []
  blocks : p.kindBlocks.length + p.appBlocks.length ≤ 2 * p.signatures.length

theorem Progress.OfLibrary.add (h : p.OfLibrary) {a : Application} {k : Kernel} (hk : a.kind = k.kind)
    (hadd : p.add g a = .ok q) : q.OfLibrary := by
  obtain ⟨-, kindBlocks, symbols, blocks, appBlocks, symbols', outputs, body, hkind, hblocks, happ, -, -, rfl⟩ :=
    Progress.add_eq_ok hadd
  rw [hk, Kernel.kindBlocks_eq] at hkind
  rw [hk, Kernel.appBlocks_eq] at hblocks
  cases hblocks
  have hown : (k.blocks (context g p.signatures.length a)).length ≤ 1 := by cases k <;> simp [Kernel.blocks]
  have hkindLength := Support.length_insertAll_le hkind
  have happLength := Support.length_insertAll_le happ
  have hasked : k.kind.link.headers = [] ∨ k.kind.link.headers = ["math.h"] := by
    cases k with
    | unary op d => exact .inr rfl
    | scale d => exact .inl rfl
    | reduceSum d => exact .inl rfl
    | binary op d => exact .inl rfl
  have hinit : k.kind.link.initCode = [] := by cases k <;> rfl
  refine ⟨?_, ?_, ?_⟩
  · rw [hk]
    show Link.union p.link.headers k.kind.link.headers = [] ∨ Link.union p.link.headers k.kind.link.headers = _
    rcases h.headers with hp | hp <;> rcases hasked with ha | ha <;> rw [hp, ha] <;> decide
  · show Link.union p.link.initCode a.kind.link.initCode = []
    rw [h.initCode, hk, hinit]
    rfl
  · have hbefore := h.blocks
    simp only [List.length_append, List.length_cons, List.length_nil] at hkindLength ⊢
    omega

theorem Progress.OfLibrary.foldlM (hkinds : ∀ a ∈ apps, ∃ k : Kernel, a.kind = k.kind) (h : p.OfLibrary)
    (hfold : apps.foldlM (Progress.add g) p = .ok q) : q.OfLibrary := by
  induction apps generalizing p with
  | nil =>
    cases hfold
    exact h
  | cons a apps ih =>
    rw [List.foldlM_cons] at hfold
    obtain ⟨p₁, hadd, hrest⟩ := Outcome.bind_eq_ok.1 hfold
    obtain ⟨k, hk⟩ := hkinds a (by simp)
    exact ih (fun b hb => hkinds b (by simp [hb])) (h.add hk hadd) hrest

theorem ofLibrary_start : Progress.start.OfLibrary := ⟨.inl rfl, rfl, Nat.zero_le _⟩

/-- The blocks of library kinds mark no application. -/
theorem written_of_collect (hkinds : ∀ a ∈ g.applications, ∃ k : Kernel, a.kind = k.kind)
    (h : collect g = .ok p) {b : SupportBlock} (hb : b ∈ p.kindBlocks ∨ b ∈ p.appBlocks) :
    Piece.Written Module.Clear 15 (Module.supportPieces b) := by
  rcases hb with hb | hb
  · obtain ⟨a, ha, hb⟩ := (mem_kindBlocks_iff h).1 hb
    obtain ⟨k, hk⟩ := hkinds a ha
    rw [hk, Kernel.kindBlocks_eq] at hb
    rw [List.mem_singleton.1 hb]
    exact Module.written_stridedOffset
  · obtain ⟨i, a, blocks, ha, hblocks, hb⟩ := (mem_appBlocks_iff h).1 hb
    obtain ⟨k, hk⟩ := hkinds a (List.mem_of_getElem? ha)
    rw [hk, Kernel.appBlocks_eq] at hblocks
    cases hblocks
    cases k with
    | binary op d =>
      rw [List.mem_singleton.1 hb]
      exact (Module.written_combine (congrArg (Symbol.application i ·.name) hk) op d).mono (by decide)
    | scale d => cases hb
    | reduceSum d => cases hb
    | unary op d => cases hb

/-! ## All lines -/

/-- The pieces of a module of library kinds: only those of applications mark them. -/
theorem exists_pieces (hkinds : ∀ a ∈ g.applications, ∃ k : Kernel, a.kind = k.kind) (h : assemble g = .ok m) :
    ∃ opening closing : List Piece,
      Piece.Written Module.Clear (31 * m.applications.length + 131) opening ∧
      Piece.Written Module.Clear 10 closing ∧
      Piece.renderAll (opening ++ m.plans.flatMap Module.applicationPieces ++ closing) = .ok m.source := by
  obtain ⟨p, ofKinds, ofApps, hp, -, hofKinds, hofApps, hglobals⟩ := globals_eq h
  obtain ⟨p', parts, hp', hparts, rfl⟩ := assemble_eq_ok h
  obtain rfl : p = p' := Except.ok.inj (hp.symm.trans hp')
  obtain ⟨hopening, -, hentry, hinit, habi⟩ := parts_eq_ok hparts
  have hlibrary : p.OfLibrary := ofLibrary_start.foldlM hkinds hp
  have habi : Piece.renderAll [Module.abiPiece] = .ok (parts.abi ++ "") := by
    rw [Piece.renderAll, habi]
    rfl
  have hall := Piece.renderAll_append (Piece.renderAll_append (Piece.renderAll_append (Piece.renderAll_append
    hopening hglobals) hentry) hinit) habi
  rw [hlibrary.initCode, String.append_empty] at hall
  have hsupport : Piece.Written Module.Clear (15 * (ofKinds ++ ofApps).length)
      ((ofKinds ++ ofApps).flatMap Module.supportPieces) := Piece.written_flatMap fun b hb =>
    written_of_collect hkinds hp ((List.mem_append.1 hb).imp hofKinds.mem_iff.1 hofApps.mem_iff.1)
  have hcount : (ofKinds ++ ofApps).length ≤ 2 * p.signatures.length := by
    rw [List.length_append, hofKinds.length_eq, hofApps.length_eq]
    exact hlibrary.blocks
  have hfirst := ((Module.written_header (g.bindings g.inputs) (g.bindings g.outputs) p.signatures p.link).append
    (Module.written_includes hlibrary.headers)).append Module.written_prelude
  have hopened := (hfirst.append hsupport).append
    (Module.written_entryOpening g.inputs.length g.outputs.length g.tempCount)
  have hclosed := (Module.written_entryClosing g.tempCount).append Module.written_abi
  refine ⟨_, _, hopened.mono ?_, hclosed, ?_⟩
  · show _ ≤ 31 * p.signatures.length + 131
    omega
  · simpa only [Parts.text, Module.entryPieces, Module.initPieces, List.isEmpty_nil, if_true, List.append_assoc,
      List.cons_append, List.nil_append] using hall

end Assembly

namespace Module

theorem ended_applicationPieces (plan : Plan) : ∀ p ∈ applicationPieces plan, p.Ended := by
  have houtputs : ∀ p ∈ plan.outputs.mapIdx fun index o => outputPiece plan.context index o, p.Ended := by
    intro p hp
    obtain ⟨index, hindex, rfl⟩ := List.mem_mapIdx.1 hp
    exact Piece.ended_block _ _
  simp only [applicationPieces, applicationOpening, List.forall_mem_append, List.forall_mem_cons, List.not_mem_nil,
    false_implies, implies_true, and_true]
  exact ⟨⟨⟨⟨Piece.ended_lines _, Piece.ended_lines _, Piece.ended_lines _⟩, houtputs⟩, Piece.ended_lines _⟩,
    Piece.ended_block _ _, Piece.ended_lines _⟩

/-- The lines of the block of an application. -/
def blockLines (name : String) (inner : List (List Char)) : List (List Char) :=
  ("  " ++ marker name).toList :: "  \x7b".toList :: inner ++ ["  \x7d".toList]

/-- A module in lines: some before the blocks of its applications, the blocks in order, and some after them. -/
structure LaidOut (m : Module) (before : List (List Char)) (blocks : List (List (List Char)))
    (after : List (List Char)) : Prop where
  lines : Text.lines m.source.toList = before ++ blocks.flatten ++ after
  low : before.length ≤ 31 * m.applications.length + 131
  before : ∀ line ∈ before, Clear line
  after : ∀ line ∈ after, Clear line
  count : blocks.length = m.applications.length
  block : ∀ i a, m.applications[i]? = some a → ∃ inner, blocks[i]? = some (blockLines a.name inner) ∧
    inner.length ≤ 32 ∧ ∀ line ∈ inner, Inner i line
  names : ∀ i a, m.applications[i]? = some a → ∃ k : Kernel, a.name = Symbol.application i k.kind.name

end Module

namespace Assembly

variable {g : Graph} {m : Module}

theorem length_signaturesFrom (position : Nat) (apps : List Application) :
    (signaturesFrom g position apps).length = apps.length := by
  induction apps generalizing position with
  | nil => rfl
  | cons a apps ih => exact congrArg (· + 1) (ih _)

theorem getElem?_signaturesFrom (position i : Nat) (apps : List Application) :
    (signaturesFrom g position apps)[i]? = apps[i]?.map fun a => signature g a (context g (position + i) a) := by
  induction apps generalizing position i with
  | nil => rfl
  | cons a apps ih =>
    cases i with
    | zero => rfl
    | succ i =>
      rw [signaturesFrom, List.getElem?_cons_succ, List.getElem?_cons_succ, ih, Nat.add_right_comm, Nat.add_assoc]

/-- The block of an application of a library kind in its place. -/
theorem exists_blockLines {a : Application} {k : Kernel} {i : Nat} {plan : Plan} (hk : a.kind = k.kind)
    (hplan : Places g i a plan) : ∃ inner, (Module.applicationPieces plan).flatMap Piece.rows =
      Module.blockLines (context g i a).name inner ∧ inner.length ≤ 32 ∧ ∀ line ∈ inner, Module.Inner i line := by
  have hname : plan.context.name = Symbol.application i k.kind.name := by
    rw [hplan.context, ← hk]
    rfl
  obtain ⟨hchecked, hbody, v, -, -, houtputs⟩ := hplan.kernel hk
  have hextents : ∀ o ∈ plan.outputs, ∀ e ∈ o.extents, Local (toString i).toList e.text := by
    intro o ho
    obtain ⟨index, -, hextents⟩ := extents_of_planOutputs hplan.outputs o ho
    exact k.local_extents (hk ▸ hextents)
  have hinputs : plan.inputs.length ≤ 2 := by
    have harity := hchecked.inputs
    rw [hplan.context] at harity
    have hlength : a.inputs.length = k.arity := by simpa [context, Graph.bindings] using harity
    rw [hplan.inputs, List.length_map, hlength]
    cases k <;> simp [Kernel.arity]
  obtain ⟨inner, hrows, hlow, hinner⟩ := Module.rows_applicationPieces (Context.numbered hname) hbody hextents
  rw [houtputs, List.length_singleton] at hlow
  rw [← hplan.context]
  exact ⟨inner, hrows, by omega, hinner⟩

/-- **The lines of a module of library kinds.** -/
theorem exists_laidOut (hkinds : ∀ a ∈ g.applications, ∃ k : Kernel, a.kind = k.kind) (h : assemble g = .ok m) :
    ∃ before blocks after, m.LaidOut before blocks after := by
  obtain ⟨opening, closing, hopening, hclosing, hsource⟩ := exists_pieces hkinds h
  have happs : ∀ i a, m.applications[i]? = some a → ∃ app k, g.applications[i]? = some app ∧
      app.kind = Kernel.kind k ∧ a.name = (context g i app).name := by
    intro i a ha
    rw [applications_eq h, getElem?_signaturesFrom, Nat.zero_add] at ha
    obtain ⟨app, happ, rfl⟩ := Option.map_eq_some_iff.1 ha
    obtain ⟨k, hk⟩ := hkinds app (List.mem_of_getElem? happ)
    exact ⟨app, k, happ, hk, rfl⟩
  refine ⟨opening.flatMap Piece.rows, m.plans.map fun plan => (Module.applicationPieces plan).flatMap Piece.rows,
    closing.flatMap Piece.rows, ?_, hopening.low, hopening.each, hclosing.each, ?_, ?_, ?_⟩
  · have hended : ∀ piece ∈ opening ++ m.plans.flatMap Module.applicationPieces ++ closing, piece.Ended := by
      refine List.forall_mem_append.2 ⟨List.forall_mem_append.2 ⟨hopening.ended, fun piece hpiece => ?_⟩,
        hclosing.ended⟩
      obtain ⟨plan, -, hpiece⟩ := List.mem_flatMap.1 hpiece
      exact Module.ended_applicationPieces plan piece hpiece
    rw [(Piece.lines_renderAll hsource hended).2, List.flatMap_append, List.flatMap_append, List.flatMap_assoc,
      ← List.flatMap_def]
  · rw [List.length_map, (assemble_planned h).length_eq, applications_eq h, length_signaturesFrom]
  · intro i a ha
    obtain ⟨app, k, happ, hk, hname⟩ := happs i a ha
    obtain ⟨plan, hplan, hplaces⟩ := (assemble_planned h).places_at happ
    rw [Nat.zero_add] at hplaces
    obtain ⟨inner, hrows, hlow, hinner⟩ := exists_blockLines hk hplaces
    refine ⟨inner, ?_, hlow, hinner⟩
    rw [List.getElem?_map, hplan, hname, ← hrows]
    rfl
  · intro i a ha
    obtain ⟨app, k, -, hk, hname⟩ := happs i a ha
    refine ⟨k, ?_⟩
    rw [hname, ← hk]
    rfl

end Assembly

end OpFusion
