/-
  Where the code of an application stands.

  The block of an application goes from the line with its marker to the closing brace of the same depth
  (`Module.Block`). In a module of library kinds each application has one block, and the blocks stand one
  after another (`LaidOut.block_iff`).
-/
import OpFusion.Proofs.Module.Layout

namespace OpFusion.Module

/-- The line with a number, counted from one. -/
def line? (m : Module) : Nat → Option String
  | 0 => none
  | n + 1 => (Text.lines m.source.toList)[n]?.map String.ofList

/-- The block of an application by the numbers of its lines: from its marker to the first closing brace at the
depth of the marker. -/
structure Block (m : Module) (name : String) (first last : Nat) : Prop where
  marker : m.line? first = some ("  " ++ marker name)
  brace : m.line? last = some "  \x7d"
  order : first < last
  inside : ∀ n, first < n → n < last → m.line? n ≠ some "  \x7d"

/-- A line that stands in the block of the application at a position. -/
def Holds (m : Module) (i n : Nat) : Prop :=
  ∃ a first last, m.applications[i]? = some a ∧ m.Block a.name first last ∧ first ≤ n ∧ n ≤ last

/-! ## Lines of a block -/

section

variable {name : String} {inner : List (List Char)} {i : Nat}

theorem slash_notMem_of_mem_tail (hinner : ∀ line ∈ inner, Inner i line) :
    ∀ line ∈ (blockLines name inner).tail, '/' ∉ line := by
  simp only [blockLines, List.cons_append, List.tail_cons, List.forall_mem_cons, List.forall_mem_append,
    List.not_mem_nil, false_implies, implies_true, and_true]
  exact ⟨by decide, fun line hline => (hinner line hline).slash, by decide⟩

/-- The braces of a block are told from its other lines. -/
theorem ne_brace_of_mem (hinner : ∀ line ∈ inner, Inner i line) :
    ∀ line ∈ "  \x7b".toList :: inner, line ≠ "  \x7d".toList := by
  refine List.forall_mem_cons.2 ⟨by decide, fun line hline heq => ?_⟩
  rcases (hinner line hline).deep with hnil | hdeep
  · rw [hnil] at heq
    exact absurd heq (by decide)
  · rw [heq] at hdeep
    exact absurd hdeep (by decide)

/-- Only its own marker stands in a block. -/
theorem trim_ne_of_mem_blockLines (hinner : ∀ line ∈ inner, Inner i line) {other : String} (hne : name ≠ other) :
    ∀ line ∈ blockLines name inner, Text.trim line ≠ (marker other).toList := by
  intro line hline heq
  rcases List.mem_cons.1 (show line ∈ _ :: (blockLines name inner).tail from hline) with rfl | hline
  · rw [String.toList_append] at heq
    exact hne (marker_inj ((trim_marker 2 name).symm.trans heq))
  · refine slash_notMem_of_mem_tail hinner line hline ((Text.trim_isInfix line).subset ?_)
    rw [heq, toList_marker]
    simp

/-- A reader of names with one number finds no application with another. -/
theorem eq_of_isInfix_of_after {line : List Char}
    (hreads : Text.Reading.after (toString i).toList .outside line = .outside) {other : Nat} {kind : String}
    (hname : (Symbol.application other kind).toList <:+: line) : other = i := by
  obtain ⟨rest, hrest⟩ := toList_application other kind
  rw [hrest] at hname
  have htag : 'n' :: (toString other).toList ++ ['_'] <:+: line :=
    List.IsInfix.trans ⟨[], rest, by simp⟩ hname
  have hthrough : Text.Reading.after (toString i).toList .outside line ≠ .foreign := by
    rw [hreads]
    simp
  exact eq_of_toString_eq (Text.Reading.eq_of_isInfix hthrough (Text.toString_ne_nil other)
    (fun _ => Text.isDigit_of_mem_toString) htag)

/-- A block names its own application only. -/
theorem eq_of_isInfix_blockLines {k : Kernel} (hinner : ∀ line ∈ inner, Inner i line) {other : Nat} {kind : String} :
    ∀ line ∈ blockLines (Symbol.application i k.kind.name) inner,
      (Symbol.application other kind).toList <:+: line → other = i := by
  have hmarker : Text.Reading.after (toString i).toList .outside
      ("  " ++ marker (Symbol.application i k.kind.name)).toList = .outside := by
    have hindent : Text.Reading.after (toString i).toList .outside "  ".toList = .outside := rfl
    have hopen : Text.Reading.after (toString i).toList .outside "/* ".toList = .outside := rfl
    have hclose : Text.Reading.after (toString i).toList .outside " */".toList = .outside := rfl
    rw [marker, String.toList_append, String.toList_append, String.toList_append, Text.Reading.after_append,
      Text.Reading.after_append, Text.Reading.after_append, hindent, hopen, (Symbol.local_application i k).after,
      hclose]
  simp only [blockLines, List.cons_append, List.forall_mem_cons, List.forall_mem_append,
    List.not_mem_nil, false_implies, implies_true, and_true]
  exact ⟨eq_of_isInfix_of_after hmarker, eq_of_isInfix_of_after (by rfl),
    fun line hline => (hinner line hline).names other kind, eq_of_isInfix_of_after (by rfl)⟩

end

/-! ## Spans -/

namespace LaidOut

variable {m : Module} {before after : List (List Char)} {blocks : List (List (List Char))} {i : Nat} {a : Signature}

/-- The number of lines before a block. -/
def start (before : List (List Char)) (blocks : List (List (List Char))) (i : Nat) : Nat :=
  before.length + (blocks.take i).flatten.length

/-- A block between what stands before and after it. -/
theorem exists_split (hl : m.LaidOut before blocks after) (ha : m.applications[i]? = some a) :
    ∃ inner, inner.length ≤ 32 ∧ (∀ line ∈ inner, Inner i line) ∧
      start before blocks (i + 1) = start before blocks i + (blockLines a.name inner).length ∧
      Text.lines m.source.toList = before ++ (blocks.take i).flatten ++ blockLines a.name inner ++
        ((blocks.drop (i + 1)).flatten ++ after) := by
  obtain ⟨inner, hblock, hlow, hinner⟩ := hl.block i a ha
  refine ⟨inner, hlow, hinner, ?_, ?_⟩
  · rw [start, start, List.take_add_one, hblock, List.flatten_append, List.length_append]
    simp [Nat.add_assoc]
  · obtain ⟨hi, hget⟩ := List.getElem?_eq_some_iff.1 hblock
    have hblocks : blocks = blocks.take i ++ blockLines a.name inner :: blocks.drop (i + 1) := by
      rw [← hget, ← List.drop_eq_getElem_cons hi, List.take_append_drop]
    have hflat := congrArg List.flatten hblocks
    rw [List.flatten_append, List.flatten_cons] at hflat
    rw [hl.lines, hflat]
    simp only [List.append_assoc]

/-- The marker of an application stands nowhere but at the head of its block. -/
theorem trim_ne_of_mem (hl : m.LaidOut before blocks after) (ha : m.applications[i]? = some a) {j : Nat} (hj : j ≠ i)
    {block : List (List Char)} (hblock : blocks[j]? = some block) :
    ∀ line ∈ block, Text.trim line ≠ (marker a.name).toList := by
  have hother : j < m.applications.length := hl.count ▸ (List.getElem?_eq_some_iff.1 hblock).1
  have happ := List.getElem?_eq_getElem hother
  obtain ⟨inner, hinner, -, hlines⟩ := hl.block j _ happ
  obtain ⟨k, hk⟩ := hl.names i a ha
  obtain ⟨k', hk'⟩ := hl.names j _ happ
  obtain rfl : blockLines _ inner = block := Option.some.inj (hinner.symm.trans hblock)
  refine trim_ne_of_mem_blockLines hlines fun heq => hj ?_
  rw [hk, hk'] at heq
  exact Symbol.position_inj (congrArg (Symbol.owned · "") heq)

/-- The lines outside of a block do not mark its application. -/
theorem trim_ne_of_mem_take (hl : m.LaidOut before blocks after) (ha : m.applications[i]? = some a) :
    ∀ line ∈ before ++ (blocks.take i).flatten, Text.trim line ≠ (marker a.name).toList := by
  obtain ⟨k, hk⟩ := hl.names i a ha
  refine List.forall_mem_append.2 ⟨fun line hline => hk ▸ hl.before line hline i k, fun line hline => ?_⟩
  obtain ⟨block, hblock, hline⟩ := List.mem_flatten.1 hline
  obtain ⟨j, hj⟩ := List.mem_iff_getElem?.1 hblock
  rw [List.getElem?_take] at hj
  split at hj
  · next hlt => exact hl.trim_ne_of_mem ha (Nat.ne_of_lt hlt) hj line hline
  · cases hj

theorem trim_ne_of_mem_drop (hl : m.LaidOut before blocks after) (ha : m.applications[i]? = some a) :
    ∀ line ∈ (blocks.drop (i + 1)).flatten ++ after, Text.trim line ≠ (marker a.name).toList := by
  obtain ⟨k, hk⟩ := hl.names i a ha
  refine List.forall_mem_append.2 ⟨fun line hline => ?_, fun line hline => hk ▸ hl.after line hline i k⟩
  obtain ⟨block, hblock, hline⟩ := List.mem_flatten.1 hline
  obtain ⟨j, hj⟩ := List.mem_iff_getElem?.1 hblock
  rw [List.getElem?_drop] at hj
  exact hl.trim_ne_of_mem ha (by omega) hj line hline

/-- The first line with the marker of an application is the first of its block. -/
theorem findIdx?_marker (hl : m.LaidOut before blocks after) (ha : m.applications[i]? = some a) :
    ((Text.lines m.source.toList).findIdx? fun line => Text.trim line = (marker a.name).toList) =
      some (start before blocks i) := by
  obtain ⟨inner, -, -, -, hlines⟩ := hl.exists_split ha
  have hbefore : (before ++ (blocks.take i).flatten).findIdx?
      (fun line => decide (Text.trim line = (marker a.name).toList)) = none :=
    List.findIdx?_eq_none_iff.2 fun line hline => decide_eq_false (hl.trim_ne_of_mem_take ha line hline)
  have hmarker : Text.trim ("  " ++ marker a.name).toList = (marker a.name).toList := by
    rw [String.toList_append]
    exact trim_marker 2 a.name
  rw [hlines, List.append_assoc, List.findIdx?_append, hbefore, blockLines, List.cons_append, List.cons_append,
    List.findIdx?_cons, hmarker]
  simp [start]

/-- The line of a marker is the first of the block. -/
theorem eq_start_of_marker (hl : m.LaidOut before blocks after) (ha : m.applications[i]? = some a) {n : Nat}
    (h : (Text.lines m.source.toList)[n]? = some ("  " ++ marker a.name).toList) : n = start before blocks i := by
  obtain ⟨inner, -, hinner, -, hlines⟩ := hl.exists_split ha
  have hmarker : Text.trim ("  " ++ marker a.name).toList = (marker a.name).toList := by
    rw [String.toList_append]
    exact trim_marker 2 a.name
  have hlength : (before ++ (blocks.take i).flatten).length = start before blocks i := List.length_append
  rw [hlines, List.append_assoc] at h
  rcases Nat.lt_or_ge n (start before blocks i) with hlt | hge
  · rw [List.getElem?_append_left (hlength ▸ hlt)] at h
    exact absurd hmarker (hl.trim_ne_of_mem_take ha _ (List.mem_of_getElem? h))
  · rw [List.getElem?_append_right (hlength ▸ hge), hlength] at h
    obtain ⟨k, rfl⟩ := Nat.exists_eq_add_of_le hge
    rw [Nat.add_sub_cancel_left] at h
    cases k with
    | zero => rfl
    | succ k =>
      have hrest := List.mem_of_getElem? (show ((blockLines a.name inner).tail ++ _)[k]? = some _ from h)
      rcases List.mem_append.1 hrest with hmem | hmem
      · refine absurd ?_ (slash_notMem_of_mem_tail hinner _ hmem)
        rw [String.toList_append, toList_marker]
        simp
      · exact absurd hmarker (hl.trim_ne_of_mem_drop ha _ hmem)

/-- The last line of a block is its only closing brace. -/
theorem brace_iff (hl : m.LaidOut before blocks after) (ha : m.applications[i]? = some a) {n : Nat}
    (hfirst : start before blocks i < n) (hlast : n < start before blocks (i + 1)) :
    (Text.lines m.source.toList)[n]? = some "  \x7d".toList ↔ n + 1 = start before blocks (i + 1) := by
  obtain ⟨inner, -, hinner, hend, hlines⟩ := hl.exists_split ha
  have hlength : (before ++ (blocks.take i).flatten).length = start before blocks i := List.length_append
  obtain ⟨k, rfl⟩ := Nat.exists_eq_add_of_lt hfirst
  have hwidth : (blockLines a.name inner).length = inner.length + 3 := by simp [blockLines]
  have hread : (Text.lines m.source.toList)[start before blocks i + k + 1]? =
      ("  \x7b".toList :: inner ++ ["  \x7d".toList])[k]? := by
    have hoffset : start before blocks i + k + 1 - start before blocks i = k + 1 := by omega
    rw [hlines, List.append_assoc, List.getElem?_append_right (by omega), hlength,
      List.getElem?_append_left (by omega), hoffset]
    rfl
  rw [hread]
  rcases Nat.lt_or_ge k (inner.length + 1) with hk | hk
  · rw [List.getElem?_append_left hk]
    refine iff_of_false (fun heq => ?_) (by omega)
    exact ne_brace_of_mem hinner _ (List.mem_of_getElem? heq) rfl
  · obtain rfl : k = inner.length + 1 := by omega
    exact iff_of_true (by simp) (by omega)

theorem line?_succ {n : Nat} {s : String} :
    m.line? (n + 1) = some s ↔ (Text.lines m.source.toList)[n]? = some s.toList := by
  rw [line?, Option.map_eq_some_iff]
  constructor
  · rintro ⟨cs, hcs, rfl⟩
    rw [hcs, String.toList_ofList]
  · intro h
    exact ⟨_, h, String.ofList_toList⟩

theorem exists_line {n : Nat} {s : String} (h : m.line? n = some s) :
    ∃ k, n = k + 1 ∧ (Text.lines m.source.toList)[k]? = some s.toList := by
  cases n with
  | zero => cases h
  | succ k => exact ⟨k, rfl, line?_succ.1 h⟩

theorem getElem?_start (hl : m.LaidOut before blocks after) (ha : m.applications[i]? = some a) :
    (Text.lines m.source.toList)[start before blocks i]? = some ("  " ++ marker a.name).toList := by
  obtain ⟨inner, -, -, -, hlines⟩ := hl.exists_split ha
  have hlength : (before ++ (blocks.take i).flatten).length = start before blocks i := List.length_append
  rw [hlines, List.append_assoc, List.getElem?_append_right (Nat.le_of_eq hlength), hlength, Nat.sub_self]
  rfl

theorem start_succ_lt (hl : m.LaidOut before blocks after) (ha : m.applications[i]? = some a) :
    start before blocks i + 1 < start before blocks (i + 1) := by
  obtain ⟨inner, -, -, hend, -⟩ := hl.exists_split ha
  rw [hend]
  simp [blockLines]

/-- **Where the block of an application is.** -/
theorem block_iff (hl : m.LaidOut before blocks after) (ha : m.applications[i]? = some a) {first last : Nat} :
    m.Block a.name first last ↔ first = start before blocks i + 1 ∧ last = start before blocks (i + 1) := by
  have hlt := hl.start_succ_lt ha
  obtain ⟨e, he⟩ := Nat.exists_eq_succ_of_ne_zero (Nat.ne_of_gt (Nat.zero_lt_of_lt hlt))
  have hclosing : m.line? (start before blocks (i + 1)) = some "  \x7d" := by
    rw [he]
    exact line?_succ.2 ((hl.brace_iff ha (by omega) (by omega)).2 he.symm)
  constructor
  · rintro ⟨hmarker, hbrace, horder, hinside⟩
    obtain ⟨f, rfl, hfirst⟩ := exists_line hmarker
    obtain ⟨l, rfl, hlast⟩ := exists_line hbrace
    obtain rfl := hl.eq_start_of_marker ha hfirst
    refine ⟨rfl, ?_⟩
    rcases Nat.lt_trichotomy (l + 1) (start before blocks (i + 1)) with hless | heq | hmore
    · exact (hl.brace_iff ha (by omega) (by omega)).1 hlast
    · exact heq
    · exact absurd hclosing (hinside _ hlt hmore)
  · rintro ⟨rfl, rfl⟩
    refine ⟨line?_succ.2 (hl.getElem?_start ha), hclosing, hlt, fun n hn hless hbrace => ?_⟩
    obtain ⟨k, rfl, hline⟩ := exists_line hbrace
    exact absurd ((hl.brace_iff ha (by omega) (by omega)).1 hline) (Nat.ne_of_lt hless)

/-- The lines of a block. -/
theorem holds_iff (hl : m.LaidOut before blocks after) {n : Nat} : m.Holds i n ↔
    i < m.applications.length ∧ start before blocks i < n ∧ n ≤ start before blocks (i + 1) := by
  constructor
  · rintro ⟨a, first, last, ha, hblock, hfirst, hlast⟩
    obtain ⟨rfl, rfl⟩ := (hl.block_iff ha).1 hblock
    exact ⟨(List.getElem?_eq_some_iff.1 ha).1, hfirst, hlast⟩
  · rintro ⟨hi, hfirst, hlast⟩
    have ha := List.getElem?_eq_getElem hi
    exact ⟨_, _, _, ha, (hl.block_iff ha).2 ⟨rfl, rfl⟩, hfirst, hlast⟩

theorem start_mono (before : List (List Char)) (blocks : List (List (List Char))) {i j : Nat} (h : i ≤ j) :
    start before blocks i ≤ start before blocks j := by
  have hstarts : blocks.take i <+: blocks.take j := List.take_prefix_take_left h
  obtain ⟨more, hmore⟩ := hstarts
  rw [start, start, ← hmore, List.flatten_append, List.length_append]
  omega

/-- A line stands in one block at most. -/
theorem holds_inj (hl : m.LaidOut before blocks after) {j n : Nat} (h : m.Holds i n) (h' : m.Holds j n) : i = j := by
  obtain ⟨-, hfirst, hlast⟩ := hl.holds_iff.1 h
  obtain ⟨-, hfirst', hlast'⟩ := hl.holds_iff.1 h'
  by_contra hne
  rcases Nat.lt_or_gt_of_ne hne with hlt | hlt
  · have hmono := start_mono before blocks (show i + 1 ≤ j from hlt)
    omega
  · have hmono := start_mono before blocks (show j + 1 ≤ i from hlt)
    omega


/-- A line of a block names no application but that of the block. -/
theorem eq_of_isInfix (hl : m.LaidOut before blocks after) {n : Nat} (h : m.Holds i n) {line : List Char}
    (hline : (Text.lines m.source.toList)[n - 1]? = some line) {other : Nat} {kind : String}
    (hname : (Symbol.application other kind).toList <:+: line) : other = i := by
  obtain ⟨hi, hfirst, hlast⟩ := hl.holds_iff.1 h
  have ha := List.getElem?_eq_getElem hi
  obtain ⟨inner, -, hinner, hend, hlines⟩ := hl.exists_split ha
  obtain ⟨k, hk⟩ := hl.names i _ ha
  have hlength : (before ++ (blocks.take i).flatten).length = start before blocks i := List.length_append
  rw [hlines, List.append_assoc, List.getElem?_append_right (by omega), hlength,
    List.getElem?_append_left (by omega), hk] at hline
  exact eq_of_isInfix_blockLines hinner line (List.mem_of_getElem? hline) hname

/-- A block stands within a number of lines that is linear in the number of applications. -/
theorem holds_le (hl : m.LaidOut before blocks after) {n : Nat} (h : m.Holds i n) :
    n ≤ 66 * m.applications.length + 131 := by
  obtain ⟨hi, -, hlast⟩ := hl.holds_iff.1 h
  have hstart : ∀ j ≤ m.applications.length, start before blocks j ≤ before.length + 35 * j := by
    intro j hj
    induction j with
    | zero => simp [start]
    | succ j ih =>
      obtain ⟨inner, hlow, -, hend, -⟩ := hl.exists_split (List.getElem?_eq_getElem hj)
      have hwidth : ∀ name, (blockLines name inner).length = inner.length + 3 := fun name => by simp [blockLines]
      have hbefore := ih (Nat.le_of_lt hj)
      rw [hend, hwidth]
      omega
  have hbound := hstart (i + 1) hi
  have hlow := hl.low
  omega

end LaidOut

end OpFusion.Module
