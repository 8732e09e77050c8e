/-
  Complaints of a compiler are laid to the right applications.

  All numbers that follow a reference to the file of a module are taken in order, and each line gives the
  application whose name stands on it, or else the last one that starts at or before it. In a module of library
  kinds both are the application in whose block the line stands (`blamed_of_holds`), so the message names the
  applications of these lines, each once and in order of first reference (`Blames`).
-/
import OpFusion.Proofs.Engine.Complaints
import OpFusion.Proofs.Module.Spans

namespace OpFusion

namespace Attribution

/-! ## The application of a line -/

theorem occursIn_iff {pattern text : List Char} : Text.occursIn pattern text = true ↔ pattern <:+: text := by
  induction text with
  | nil => simp [Text.occursIn]
  | cons c text ih =>
    rw [Text.occursIn, Bool.or_eq_true, ih, List.isPrefixOf_iff_prefix, List.infix_cons_iff]

section

variable {m : Module} {before after : List (List Char)} {blocks : List (List (List Char))} {i n : Nat}

open Module.LaidOut (start start_mono)

theorem starts_eq (hl : m.LaidOut before blocks after) :
    starts (Text.lines m.source.toList) m.applications =
      m.applications.zipIdx.map fun x => (start before blocks x.2 + 1, x.2) := by
  rw [starts, ← List.filterMap_eq_map]
  refine List.filterMap_congr fun ⟨a, index⟩ hx => ?_
  have ha : m.applications[index]? = some a := List.mem_zipIdx_iff_getElem?.1 hx
  show Option.map _ (List.findIdx? _ _) = _
  rw [hl.findIdx?_marker ha]
  rfl

/-- The last application that starts at or before a line of a block is that of the block. -/
theorem byBlock?_of_holds (hl : m.LaidOut before blocks after) (h : m.Holds i n) :
    byBlock? (starts (Text.lines m.source.toList) m.applications) n = some i := by
  obtain ⟨hi, hfirst, hlast⟩ := hl.holds_iff.1 h
  have hget : ∀ j x, (m.applications.zipIdx.map fun x => (start before blocks x.2 + 1, x.2))[j]? = some x →
      x = (start before blocks j + 1, j) := by
    intro j x hx
    rw [List.getElem?_map, List.getElem?_zipIdx, Option.map_map, Nat.zero_add] at hx
    obtain ⟨a, -, rfl⟩ := Option.map_eq_some_iff.1 hx
    rfl
  rw [byBlock?, starts_eq hl]
  generalize hstarts : (m.applications.zipIdx.map fun x => (start before blocks x.2 + 1, x.2)) = found at hget
  have hlength : i < found.length := by
    rw [← hstarts]
    simpa using hi
  have hsplit : found = found.take i ++ (start before blocks i + 1, i) :: found.drop (i + 1) := by
    rw [← hget i _ (List.getElem?_eq_getElem hlength), ← List.drop_eq_getElem_cons hlength, List.take_append_drop]
  have hlater : ∀ x ∈ found.drop (i + 1), ¬x.1 ≤ n := by
    intro x hx hle
    obtain ⟨j, hj⟩ := List.mem_iff_getElem?.1 hx
    rw [List.getElem?_drop] at hj
    rw [hget _ x hj] at hle
    have hmono := start_mono before blocks (show i + 1 ≤ i + 1 + j by omega)
    have hle : start before blocks (i + 1 + j) + 1 ≤ n := hle
    omega
  have hfind : found.reverse.find? (fun x => decide (x.1 ≤ n)) = some (start before blocks i + 1, i) := by
    refine List.find?_eq_some_iff_append.2 ⟨by simpa using hfirst, (found.drop (i + 1)).reverse,
      (found.take i).reverse, ?_, fun x hx => ?_⟩
    · conv_lhs => rw [hsplit]
      simp
    · simpa using hlater x (List.mem_reverse.1 hx)
  rw [hfind]
  rfl

/-- If a name stands on a line of a block, it is that of the block. -/
theorem byName?_of_holds (hl : m.LaidOut before blocks after) (h : m.Holds i n) {j : Nat}
    (hj : byName? (Text.lines m.source.toList) m.applications n = some j) : j = i := by
  unfold byName? at hj
  split at hj
  · cases hj
  · obtain ⟨line, hline, hj⟩ := Option.bind_eq_some_iff.1 hj
    obtain ⟨hlt, hoccurs, -⟩ := List.findIdx?_eq_some_iff_getElem.1 hj
    obtain ⟨k, hk⟩ := hl.names j _ (List.getElem?_eq_getElem hlt)
    rw [occursIn_iff, hk] at hoccurs
    exact hl.eq_of_isInfix h hline hoccurs

/-- **A line of a block is laid to the application of the block.** -/
theorem blamed_of_holds (hl : m.LaidOut before blocks after) (h : m.Holds i n) :
    (byName? (Text.lines m.source.toList) m.applications n).or
      (byBlock? (starts (Text.lines m.source.toList) m.applications) n) = some i := by
  cases hname : byName? (Text.lines m.source.toList) m.applications n with
  | none => exact byBlock?_of_holds hl h
  | some j => rw [byName?_of_holds hl h hname, Option.some_or]

end

/-! ## The message -/

/-- Which applications a text of complaints is laid to: those whose blocks hold a line that it names, each once and in
the order in which it first names one. -/
structure Blames (m : Module) (diagnostics : String) (indices : List Nat) : Prop where
  nodup : indices.Nodup
  mem : ∀ i, i ∈ indices ↔ ∃ place n, NumberAt diagnostics.toList place n ∧ m.Holds i n
  order : indices.Pairwise fun i j => ∀ place n, NumberAt diagnostics.toList place n → m.Holds j n →
    ∃ earlier n', earlier < place ∧ NumberAt diagnostics.toList earlier n' ∧ m.Holds i n'

theorem blamed_eq (m : Module) (diagnostics : String) : blamed m diagnostics =
    ((List.range diagnostics.toList.length).filterMap fun place =>
      (number? diagnostics.toList place).bind fun n => (byName? (Text.lines m.source.toList) m.applications n).or
        (byBlock? (starts (Text.lines m.source.toList) m.applications) n)).eraseDups := by
  rw [← List.filterMap_filterMap, ← references_eq, ← eraseDups_filterMap_eraseDups, ← diagnosticLines_eq]
  rfl

theorem blames_blamed {m : Module} {before after : List (List Char)} {blocks : List (List (List Char))}
    (hl : m.LaidOut before blocks after) {diagnostics : String}
    (hlines : ∀ place n, NumberAt diagnostics.toList place n → ∃ i, m.Holds i n) :
    Blames m diagnostics (blamed m diagnostics) := by
  have hfound : ∀ place i, ((number? diagnostics.toList place).bind fun n =>
      (byName? (Text.lines m.source.toList) m.applications n).or
        (byBlock? (starts (Text.lines m.source.toList) m.applications) n)) = some i ↔
      ∃ n, NumberAt diagnostics.toList place n ∧ m.Holds i n := by
    intro place i
    rw [Option.bind_eq_some_iff]
    refine exists_congr fun n => ?_
    rw [number?_eq_some]
    refine and_congr_right fun hn => ⟨fun howner => ?_, blamed_of_holds hl⟩
    obtain ⟨j, hj⟩ := hlines place n hn
    rw [blamed_of_holds hl hj] at howner
    cases howner
    exact hj
  have hfirst := firstFound_eraseDups (fun place => (number? diagnostics.toList place).bind fun n =>
    (byName? (Text.lines m.source.toList) m.applications n).or
      (byBlock? (starts (Text.lines m.source.toList) m.applications) n)) diagnostics.toList.length
  rw [← blamed_eq] at hfirst
  refine ⟨hfirst.nodup, fun i => ?_, hfirst.order.imp fun {i j} hij place n hn hj => ?_⟩
  · rw [hfirst.mem]
    constructor
    · rintro ⟨place, -, hplace⟩
      exact ⟨place, (hfound place i).1 hplace⟩
    · rintro ⟨place, n, hn, hi⟩
      exact ⟨place, hn.lt, (hfound place i).2 ⟨n, hn, hi⟩⟩
  · obtain ⟨earlier, hearlier, hplace⟩ := hij place hn.lt ((hfound place j).2 ⟨n, hn, hj⟩)
    obtain ⟨n', hn', hi⟩ := (hfound earlier i).1 hplace
    exact ⟨earlier, n', hearlier, hn', hi⟩

/-- Two applications are named in the order of the complaints if the first of them is about the one. -/
theorem Blames.eq_pair {m : Module} {diagnostics : String} {indices : List Nat} (h : Blames m diagnostics indices)
    {i j n : Nat} (hne : i ≠ j) (hmem : ∀ x, x ∈ indices ↔ x = i ∨ x = j) (hn : NumberAt diagnostics.toList 0 n)
    (hi : m.Holds i n) : indices = [i, j] := by
  have hperm : indices.Perm [i, j] :=
    (List.perm_ext_iff_of_nodup h.nodup (by simp [hne])).2 (by simpa using hmem)
  obtain ⟨x, y, rfl⟩ := List.length_eq_two.1 hperm.length_eq
  have hxy : x ≠ y := by simpa using h.nodup
  have horder : ¬y = i := by
    rintro rfl
    have hearlier := (List.pairwise_pair.1 h.order) 0 n hn hi
    simp at hearlier
  have hx := (hmem x).1 (by simp)
  have hy := (hmem y).1 (by simp)
  grind

theorem blamed_eq_nil (m : Module) {diagnostics : String} (h : ∀ place n, ¬NumberAt diagnostics.toList place n) :
    blamed m diagnostics = [] := by
  have hnone : ∀ place, number? diagnostics.toList place = none := fun place =>
    Option.eq_none_iff_forall_ne_some.2 fun n hn => h place n (number?_eq_some.1 hn)
  rw [blamed_eq]
  simp [hnone]

/-- **An error of the compiler names the applications that its complaints are about.** If a number follows a
reference and all these numbers are lines of blocks, the message names the applications of these blocks; if none
does, it names all applications. Then come the complaints as they are. -/
theorem blame_compile {g : Graph} {m : Module} (hkinds : ∀ a ∈ g.applications, ∃ k : Kernel, a.kind = k.kind)
    (hm : Assembly.assemble g = .ok m) (key diagnostics : String) :
    ((∃ place n, NumberAt diagnostics.toList place n) →
      (∀ place n, NumberAt diagnostics.toList place n → ∃ i, m.Holds i n) →
      ∃ (indices : List Nat) (named : List Signature), Blames m diagnostics indices ∧ indices.map (m.applications[·]?) = named.map some ∧
        blame m (.compile key diagnostics) = .compile key ("in application " ++
          ", ".intercalate (named.map fun a => a.name ++ " (op '" ++ a.kind ++ "')") ++ ": " ++ diagnostics)) ∧
    ((∀ place n, ¬NumberAt diagnostics.toList place n) →
      blame m (.compile key diagnostics) = .compile key ("module applications: " ++
        ", ".intercalate (m.applications.map fun a => a.name ++ " (op '" ++ a.kind ++ "')") ++ ": " ++
          diagnostics)) := by
  obtain ⟨before, blocks, after, hl⟩ := Assembly.exists_laidOut hkinds hm
  refine ⟨fun ⟨place, n, hn⟩ hlines => ?_, fun hnone => ?_⟩
  · have hblames := blames_blamed hl hlines
    obtain ⟨i, hi⟩ := hlines place n hn
    have hne : blamed m diagnostics ≠ [] := List.ne_nil_of_mem ((hblames.mem i).2 ⟨place, n, hn, hi⟩)
    have hthere : ∀ j ∈ blamed m diagnostics, (m.applications[j]?).isSome = true := by
      intro j hj
      obtain ⟨_, _, -, a, _, _, ha, -⟩ := (hblames.mem j).1 hj
      rw [ha]
      rfl
    refine ⟨blamed m diagnostics, (blamed m diagnostics).filterMap (m.applications[·]?), hblames, ?_, ?_⟩
    · rw [List.map_filterMap_some_eq_filter_map_isSome, List.filter_eq_self.2 (List.forall_mem_map.2 hthere)]
    · rw [blame, context]
      split
      · next hnil => exact absurd hnil hne
      · rfl
  · rw [blame, context, blamed_eq_nil m hnone]
    rfl

/-! ## A module of two applications -/

/-- A vector multiplied twice by a number. -/
def rescaled : Graph where
  name := "rescaled"
  vars := [⟨.f64, 1⟩, ⟨.f64, 0⟩, ⟨.f64, 1⟩, ⟨.f64, 1⟩]
  applications := [⟨Library.scale .f64, [0, 1], [2]⟩, ⟨Library.scale .f64, [2, 1], [3]⟩]
  inputs := [0, 1]
  outputs := [3]

theorem kinds_rescaled : ∀ a ∈ rescaled.applications, ∃ k : Kernel, a.kind = k.kind := by
  simp only [rescaled, List.forall_mem_cons, List.not_mem_nil, false_implies, implies_true, and_true]
  exact ⟨⟨.scale .f64, rfl⟩, ⟨.scale .f64, rfl⟩⟩

theorem assemble_rescaled : ∃ m, Assembly.assemble rescaled = .ok m :=
  Assembly.assemble_of_collect kinds_rescaled (by decide +kernel)

theorem numberAt_toString {n : Nat} (hn : n < 2 ^ 64) {rest : List Char}
    (hrest : ∀ c ∈ rest.head?, c.isDigit = false) :
    NumberAt ("module.c:".toList ++ ((toString n).toList ++ rest)) 0 n := by
  have hvalue : Nat.ofDigitChars 10 (toString n).toList 0 = n := by
    rw [Nat.toString_eq_ofList_toDigits, String.toList_ofList, Nat.ofDigitChars_ten_toDigits]
  exact ⟨(toString n).toList, rest, rfl, Text.toString_ne_nil n, fun _ => Text.isDigit_of_mem_toString, hrest, hvalue, hn⟩

theorem references_number {n : Nat} (hn : n < 2 ^ 64) {rest : List Char}
    (hrest : ∀ c ∈ rest.head?, c.isDigit = false) :
    references ("module.c:".toList ++ ((toString n).toList ++ rest)) = n :: references rest := by
  have hnumber : ((Text.dropPrefix? reference ('m' :: ("odule.c:".toList ++ ((toString n).toList ++ rest)))).bind
      fun rest => Text.word? (rest.takeWhile Char.isDigit)) = some n :=
    number?_eq_some.2 (numberAt_toString hn hrest)
  have hother : 'm' ∉ "odule.c:".toList ++ (toString n).toList := by
    rw [List.mem_append, not_or]
    exact ⟨by decide, fun hmem => absurd (Text.isDigit_of_mem_toString hmem) (by decide)⟩
  rw [show "module.c:".toList = 'm' :: "odule.c:".toList by decide, List.cons_append, references, hnumber,
    ← List.append_assoc, references_append hother]

/-- Complaints about two lines, and about the one after the first of them. -/
def complaints (one other : Nat) : String :=
  "module.c:" ++ toString one ++ ": error\n" ++ "module.c:" ++ toString other ++ ": error\n" ++
    "module.c:" ++ toString (one + 1) ++ ": note\n"

theorem references_complaints {one other : Nat} (hone : one + 1 < 2 ^ 64) (hother : other < 2 ^ 64) :
    references (complaints one other).toList = [one, other, one + 1] ∧
      NumberAt (complaints one other).toList 0 one := by
  have hend : ∀ rest : List Char, ∀ c ∈ (": error\n".toList ++ rest).head?, c.isDigit = false := by
    simp
  have hlast : ∀ c ∈ ": note\n".toList.head?, c.isDigit = false := by
    simp
  unfold complaints
  simp only [String.toList_append, List.append_assoc]
  refine ⟨?_, numberAt_toString (by omega) (hend _)⟩
  rw [references_number (by omega) (hend _), references_append (by decide), references_number hother (hend _),
    references_append (by decide), references_number hone hlast, show references ": note\n".toList = [] by decide]

/-- Complaints about the second application and then about the first name them in this order. -/
theorem blame_compile_rescaled : ∃ (m : Module) (first second : Nat), Assembly.assemble rescaled = .ok m ∧
    (∃ last, m.Block "n0_scale" first last) ∧ (∃ last, m.Block "n1_scale" second last) ∧
    (∀ place n, NumberAt (complaints second first).toList place n → ∃ i, m.Holds i n) ∧
    blame m (.compile "k" (complaints second first)) = .compile "k"
      ("in application n1_scale (op 'scale'), n0_scale (op 'scale'): " ++ complaints second first) ∧
    blame m (.compile "k" "out of memory") =
      .compile "k" "module applications: n0_scale (op 'scale'), n1_scale (op 'scale'): out of memory" := by
  obtain ⟨m, hm⟩ := assemble_rescaled
  obtain ⟨before, blocks, after, hl⟩ := Assembly.exists_laidOut kinds_rescaled hm
  obtain ⟨a, b, happs, ha, hb⟩ : ∃ a b : Signature, m.applications = [a, b] ∧
      (a.name = "n0_scale" ∧ a.kind = "scale") ∧ (b.name = "n1_scale" ∧ b.kind = "scale") :=
    ⟨_, _, Assembly.applications_eq hm, by decide +kernel, by decide +kernel⟩
  have hfirstApp : m.applications[0]? = some a := by rw [happs]; rfl
  have hsecondApp : m.applications[1]? = some b := by rw [happs]; rfl
  have hlt := hl.start_succ_lt hsecondApp
  have hfirst := (hl.block_iff hfirstApp).2 ⟨rfl, rfl⟩
  have hsecond := (hl.block_iff hsecondApp).2 ⟨rfl, rfl⟩
  have hholds : m.Holds 0 (Module.LaidOut.start before blocks 0 + 1) :=
    ⟨a, _, _, hfirstApp, hfirst, Nat.le_refl _, Nat.le_of_lt hfirst.order⟩
  have hholds' : m.Holds 1 (Module.LaidOut.start before blocks 1 + 1) :=
    ⟨b, _, _, hsecondApp, hsecond, Nat.le_refl _, Nat.le_of_lt hsecond.order⟩
  have hholdsNext : m.Holds 1 (Module.LaidOut.start before blocks 1 + 1 + 1) :=
    ⟨b, _, _, hsecondApp, hsecond, Nat.le_succ _, hsecond.order⟩
  have hbound : 66 * m.applications.length + 131 < 2 ^ 64 := by
    rw [happs]
    simp
  generalize Module.LaidOut.start before blocks 0 + 1 = first at *
  generalize Module.LaidOut.start before blocks 1 + 1 = second at *
  obtain ⟨hreferences, hplace⟩ := references_complaints
    (Nat.lt_of_le_of_lt (hl.holds_le hholdsNext) hbound) (Nat.lt_of_le_of_lt (hl.holds_le hholds) hbound)
  have hnumbers : ∀ place n, NumberAt (complaints second first).toList place n →
      n = second ∨ n = first ∨ n = second + 1 := by
    intro place n hn
    simpa [hreferences] using mem_references.2 ⟨place, hn⟩
  have hlines : ∀ place n, NumberAt (complaints second first).toList place n → ∃ i, m.Holds i n := by
    intro place n hn
    rcases hnumbers place n hn with rfl | rfl | rfl
    · exact ⟨1, hholds'⟩
    · exact ⟨0, hholds⟩
    · exact ⟨1, hholdsNext⟩
  obtain ⟨hsome, -⟩ := blame_compile kinds_rescaled hm "k" (complaints second first)
  obtain ⟨-, hnone⟩ := blame_compile kinds_rescaled hm "k" "out of memory"
  obtain ⟨indices, named, hblames, hnamed, hmessage⟩ := hsome ⟨0, second, hplace⟩ hlines
  refine ⟨m, first, second, hm, ⟨_, ha.1 ▸ hfirst⟩, ⟨_, hb.1 ▸ hsecond⟩, hlines, ?_, ?_⟩
  · have hmem : ∀ i, i ∈ indices ↔ i = 1 ∨ i = 0 := by
      intro i
      rw [hblames.mem]
      constructor
      · rintro ⟨place, n, hn, hi⟩
        rcases hnumbers place n hn with rfl | rfl | rfl
        · exact .inl (hl.holds_inj hi hholds')
        · exact .inr (hl.holds_inj hi hholds)
        · exact .inl (hl.holds_inj hi hholdsNext)
      · obtain ⟨place, hother⟩ := mem_references.1 (show first ∈ references (complaints second first).toList by
          simp [hreferences])
        rintro (rfl | rfl)
        · exact ⟨0, second, hplace, hholds'⟩
        · exact ⟨place, first, hother, hholds⟩
    obtain rfl := hblames.eq_pair (by decide) hmem hplace hholds'
    have hsignatures : named = [b, a] := by
      refine List.map_injective_iff.2 (Option.some_injective _) (hnamed.symm.trans ?_)
      rw [happs]
      rfl
    have htext : "in application " ++ ", ".intercalate ["n1_scale" ++ " (op '" ++ "scale" ++ "')",
        "n0_scale" ++ " (op '" ++ "scale" ++ "')"] ++ ": " =
        "in application n1_scale (op 'scale'), n0_scale (op 'scale'): " := by decide +kernel
    rw [hmessage, hsignatures, List.map_cons, List.map_cons, List.map_nil, ha.1, ha.2, hb.1, hb.2, htext]
  · have htext : "module applications: " ++ ", ".intercalate ["n0_scale" ++ " (op '" ++ "scale" ++ "')",
        "n1_scale" ++ " (op '" ++ "scale" ++ "')"] ++ ": " ++ "out of memory" =
        "module applications: n0_scale (op 'scale'), n1_scale (op 'scale'): out of memory" := by decide +kernel
    have hempty : references "out of memory".toList = [] := by decide
    have habsent : ∀ place n, ¬NumberAt "out of memory".toList place n := by
      intro place n hn
      have hmem := mem_references.2 ⟨place, hn⟩
      rw [hempty] at hmem
      cases hmem
    rw [hnone habsent, happs, List.map_cons, List.map_cons, List.map_nil, ha.1, ha.2, hb.1, hb.2, htext]

end Attribution

end OpFusion
