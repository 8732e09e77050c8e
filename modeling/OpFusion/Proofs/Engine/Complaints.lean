/-
  The lines that complaints name.

  A complaint names a line by the number that directly follows the name of the file (`NumberAt`). The search for
  references goes on behind each one that it finds. No reference begins inside another one, so this finds the
  numbers at all places of a text (`references_next`, `diagnosticLines_eq`), each once and in the order in which
  they first stand there (`diagnosticLines_eq_iff`).
-/
import Mathlib
import OpFusion.Engine.Attribution

namespace OpFusion

/-! ## First occurrences -/

section

variable {α β : Type} [DecidableEq α] [DecidableEq β]

theorem eraseDups_concat (l : List α) (x : α) :
    (l ++ [x]).eraseDups = if x ∈ l then l.eraseDups else l.eraseDups ++ [x] := by
  rw [List.eraseDups_append]
  by_cases h : x ∈ l <;> simp [List.removeAll, List.eraseDups_cons, h]

/-- Repetitions may be left out before or after. -/
theorem eraseDups_filterMap_eraseDups (f : α → Option β) (l : List α) :
    (l.eraseDups.filterMap f).eraseDups = (l.filterMap f).eraseDups := by
  induction l using List.reverseRecOn with
  | nil => rfl
  | append_singleton l x ih =>
    rw [eraseDups_concat, List.filterMap_append]
    cases hx : f x with
    | none => split <;> simp [hx, ih]
    | some y =>
      rw [show [x].filterMap f = [y] by simp [hx], eraseDups_concat]
      split
      · next hmem => rw [ih, if_pos (List.mem_filterMap.2 ⟨x, hmem, hx⟩)]
      · rw [List.filterMap_append, show [x].filterMap f = [y] by simp [hx], eraseDups_concat, ih]
        simp [List.mem_filterMap]

/-- What is found at places in turn, each once: `i` stands before `j` only if it was found before `j` was. -/
structure FirstFound (found : Nat → Option α) (bound : Nat) (l : List α) : Prop where
  nodup : l.Nodup
  mem : ∀ x, x ∈ l ↔ ∃ place < bound, found place = some x
  order : l.Pairwise fun x y => ∀ place < bound, found place = some y →
    ∃ earlier < place, found earlier = some x

theorem firstFound_eraseDups (found : Nat → Option α) (bound : Nat) :
    FirstFound found bound ((List.range bound).filterMap found).eraseDups := by
  have hmem : ∀ n x, x ∈ ((List.range n).filterMap found).eraseDups ↔ ∃ place < n, found place = some x := by
    simp [List.mem_eraseDups, List.mem_filterMap]
  induction bound with
  | zero => exact ⟨by simp, by simp, by simp⟩
  | succ n ih =>
    have horder : ((List.range n).filterMap found).eraseDups.Pairwise fun x y =>
        ∀ place < n + 1, found place = some y → ∃ earlier < place, found earlier = some x := by
      refine ih.order.imp_of_mem fun {x y} _ hy hxy place hplace hfound => ?_
      obtain ⟨first, hfirst, hy⟩ := (ih.mem y).1 hy
      obtain ⟨earlier, hearlier, hx⟩ := hxy first hfirst hy
      rcases Nat.lt_or_ge place n with hlt | hge
      · exact hxy place hlt hfound
      · exact ⟨earlier, by omega, hx⟩
    refine ⟨?_, hmem (n + 1), ?_⟩ <;> rw [List.range_succ, List.filterMap_append] <;> cases hlast : found n
    -- the last place adds what it finds, unless that was found before
    case refine_1.none => simpa [hlast] using ih.nodup
    case refine_2.none => simpa [hlast] using horder
    case refine_1.some z =>
      rw [show [n].filterMap found = [z] by simp [hlast], eraseDups_concat]
      split
      · exact ih.nodup
      · next hnew => exact ih.nodup.append (List.nodup_singleton z) (by simpa [List.mem_eraseDups] using hnew)
    case refine_2.some z =>
      rw [show [n].filterMap found = [z] by simp [hlast], eraseDups_concat]
      split
      · exact horder
      · next hnew =>
        refine List.pairwise_append.2 ⟨horder, List.pairwise_singleton _ _, fun x hx y hy place hplace hfound => ?_⟩
        obtain rfl := List.mem_singleton.1 hy
        obtain ⟨first, hfirst, hx⟩ := (ih.mem x).1 hx
        rcases Nat.lt_or_ge place n with hlt | hge
        · exact absurd (List.mem_filterMap.2 ⟨place, List.mem_range.2 hlt, hfound⟩) hnew
        · exact ⟨first, by omega, hx⟩

end

namespace Attribution

/-! ## Numbers in complaints -/

/-- A number directly follows a reference to the file of a module: all the digits that stand there, if there are any
and a word holds their value. -/
def NumberAt (text : List Char) (place n : Nat) : Prop :=
  ∃ digits rest, text.drop place = "module.c:".toList ++ (digits ++ rest) ∧ digits ≠ [] ∧
    (∀ c ∈ digits, c.isDigit = true) ∧ (∀ c ∈ rest.head?, c.isDigit = false) ∧
    Nat.ofDigitChars 10 digits 0 = n ∧ n < 2 ^ 64

theorem dropPrefix?_eq_some {start text rest : List Char} :
    Text.dropPrefix? start text = some rest ↔ text = start ++ rest := by
  induction start generalizing text with
  | nil => simp [Text.dropPrefix?]
  | cons c start ih =>
    cases text with
    | nil => simp [Text.dropPrefix?]
    | cons d text =>
      rw [Text.dropPrefix?]
      split
      · next h => simp [ih, h]
      · next h => simp [Ne.symm h]

theorem digitsFrom_eq {digits : List Char} (h : ∀ c ∈ digits, c.isDigit = true) (acc : Nat) :
    Text.digitsFrom 10 Text.decimalDigit? acc digits = some (Nat.ofDigitChars 10 digits acc) := by
  induction digits generalizing acc with
  | nil => rfl
  | cons c digits ih =>
    have hdigit : Text.decimalDigit? c = some (c.toNat - '0'.toNat) := by
      have hc := h c (by simp)
      rw [Char.isDigit, Bool.and_eq_true, decide_eq_true_eq, decide_eq_true_eq] at hc
      exact if_pos hc
    rw [Text.digitsFrom, hdigit, Nat.ofDigitChars_cons, Nat.mul_comm 10]
    exact ih (fun x hx => h x (by simp [hx])) _

theorem word?_eq_some {digits : List Char} (h : ∀ c ∈ digits, c.isDigit = true) {n : Nat} :
    Text.word? digits = some n ↔ digits ≠ [] ∧ Nat.ofDigitChars 10 digits 0 = n ∧ n < 2 ^ 64 := by
  cases digits with
  | nil => simp [Text.word?, Text.number?]
  | cons c digits =>
    have hsign : c ≠ '+' := fun heq => absurd (h c (by simp)) (heq ▸ by decide)
    have hbound : Text.wordValues = 2 ^ 64 := rfl
    rw [Text.word?, Text.number?, if_neg hsign, digitsFrom_eq h, Option.bind_some, Text.below, hbound]
    constructor
    · intro hvalue
      split at hvalue
      · next hlt =>
        cases hvalue
        exact ⟨by simp, rfl, hlt⟩
      · cases hvalue
    · rintro ⟨-, rfl, hlt⟩
      exact if_pos hlt

theorem NumberAt.lt {text : List Char} {place n : Nat} (h : NumberAt text place n) : place < text.length := by
  obtain ⟨digits, rest, htext, -⟩ := h
  by_contra hge
  rw [List.drop_eq_nil_of_le (Nat.le_of_not_lt hge)] at htext
  exact absurd htext (by simp)

/-- The number at a place in a text. -/
def number? (text : List Char) (place : Nat) : Option Nat :=
  (Text.dropPrefix? reference (text.drop place)).bind fun rest => Text.word? (rest.takeWhile Char.isDigit)

theorem number?_eq_some {text : List Char} {place n : Nat} :
    number? text place = some n ↔ NumberAt text place n := by
  have hreference : reference = "module.c:".toList := by decide
  rw [number?, Option.bind_eq_some_iff]
  constructor
  · rintro ⟨rest, hrest, hword⟩
    rw [dropPrefix?_eq_some, hreference] at hrest
    obtain ⟨hne, hvalue, hlt⟩ := (word?_eq_some fun c hc => List.mem_takeWhile_imp hc).1 hword
    refine ⟨rest.takeWhile Char.isDigit, rest.dropWhile Char.isDigit, ?_, hne,
      fun c hc => List.mem_takeWhile_imp hc, fun c hc => ?_, hvalue, hlt⟩
    · rw [hrest, List.takeWhile_append_dropWhile]
    · have hhead := List.head?_dropWhile_not Char.isDigit rest
      rw [Option.mem_def.1 hc] at hhead
      exact hhead
  · rintro ⟨digits, rest, htext, hne, hdigits, hend, hvalue, hlt⟩
    refine ⟨digits ++ rest, by rw [dropPrefix?_eq_some, htext, hreference], ?_⟩
    have hwhole : (digits ++ rest).takeWhile Char.isDigit = digits := by
      rw [List.takeWhile_append_of_pos hdigits]
      cases rest with
      | nil => simp
      | cons c rest =>
        have hc := hend c rfl
        simp [hc]
    rw [hwhole]
    exact (word?_eq_some hdigits).2 ⟨hne, hvalue, hlt⟩

/-- The numbers at the places of a text, in order. -/
def references : List Char → List Nat
  | [] => []
  | c :: cs =>
    match (Text.dropPrefix? reference (c :: cs)).bind fun rest =>
        Text.word? (rest.takeWhile Char.isDigit) with
    | some line => line :: references cs
    | none => references cs

theorem references_eq (text : List Char) :
    references text = (List.range text.length).filterMap (number? text) := by
  induction text with
  | nil => rfl
  | cons c text ih =>
    have hshift : (number? (c :: text)) ∘ Nat.succ = number? text := rfl
    have hfirst : ((Text.dropPrefix? reference (c :: text)).bind fun rest =>
        Text.word? (rest.takeWhile Char.isDigit)) = number? (c :: text) 0 := rfl
    rw [references, List.length_cons, List.range_succ_eq_map, List.filterMap_cons, List.filterMap_map, hshift, ← ih,
      hfirst]
    cases number? (c :: text) 0 <;> rfl

theorem mem_references {text : List Char} {n : Nat} : n ∈ references text ↔ ∃ place, NumberAt text place n := by
  rw [references_eq, List.mem_filterMap]
  constructor
  · rintro ⟨place, -, hplace⟩
    exact ⟨place, number?_eq_some.1 hplace⟩
  · rintro ⟨place, hplace⟩
    exact ⟨place, List.mem_range.2 hplace.lt, number?_eq_some.2 hplace⟩

/-! ## The search -/

/-- A character that no reference begins with is passed over. -/
theorem references_cons {c : Char} {cs : List Char} (h : ¬reference <+: c :: cs) :
    references (c :: cs) = references cs := by
  have hnone : Text.dropPrefix? reference (c :: cs) = none :=
    Option.eq_none_iff_forall_ne_some.2 fun rest hrest => h ⟨rest, (dropPrefix?_eq_some.1 hrest).symm⟩
  rw [references, hnone]
  rfl

theorem references_append {cs : List Char} (h : 'm' ∉ cs) (text : List Char) :
    references (cs ++ text) = references text := by
  induction cs with
  | nil => rfl
  | cons c cs ih =>
    have hstart : ¬reference <+: c :: (cs ++ text) := by
      rw [show reference = 'm' :: "odule.c:".toList by decide, List.cons_prefix_cons]
      exact fun hprefix => List.ne_of_not_mem_cons h hprefix.1
    rw [List.cons_append, references_cons hstart, ih (List.not_mem_of_not_mem_cons h)]

/-- Behind a reference stand its number, if there is one, and then other references: none begins inside it. -/
theorem references_reference (rest : List Char) : references (reference ++ rest) =
    (Text.word? (rest.takeWhile Char.isDigit)).toList ++ references rest := by
  have hreference : reference = 'm' :: "odule.c:".toList := by decide
  have hfirst : Text.dropPrefix? reference ('m' :: ("odule.c:".toList ++ rest)) = some rest := by
    rw [dropPrefix?_eq_some, hreference, List.cons_append]
  rw [hreference, List.cons_append, references, hfirst, Option.bind_some, references_append (by decide)]
  cases Text.word? (rest.takeWhile Char.isDigit) <;> rfl

/-- **What the search finds next is the next of all numbers.** -/
theorem references_next (text : List Char) : references text =
    match Text.afterFirst? reference text with
    | some rest => (Text.word? (rest.takeWhile Char.isDigit)).toList ++ references rest
    | none => [] := by
  induction text with
  | nil => rfl
  | cons c cs ih =>
    by_cases hstart : reference.isPrefixOf (c :: cs) = true
    · obtain ⟨rest, hrest⟩ := List.isPrefixOf_iff_prefix.1 hstart
      rw [Text.afterFirst?, if_pos hstart, ← hrest, List.drop_left, references_reference]
    · rw [Text.afterFirst?, if_neg hstart, references_cons fun h => hstart (List.isPrefixOf_iff_prefix.2 h), ih]

theorem note_eraseDups (found : List Nat) (digits : List Char) :
    note found.eraseDups digits = (found ++ (Text.word? digits).toList).eraseDups := by
  unfold note
  cases Text.word? digits with
  | none => simp
  | some line =>
    rw [Option.toList_some, eraseDups_concat]
    simp only [List.mem_eraseDups]

/-- The search adds the numbers at all places of a text to those that were found before. -/
theorem linesFrom_eraseDups (found : List Nat) (text : List Char) :
    linesFrom found.eraseDups text = (found ++ references text).eraseDups := by
  generalize hstart : found.eraseDups = start
  fun_induction linesFrom start text generalizing found with
  | case1 start text rest hrest ih =>
    rw [references_next, hrest, ← List.append_assoc]
    exact ih _ (by rw [← hstart, note_eraseDups])
  | case2 start text hnone => rw [references_next, hnone, List.append_nil, hstart]

theorem diagnosticLines_eq (diagnostics : String) :
    diagnosticLines diagnostics = (references diagnostics.toList).eraseDups :=
  linesFrom_eraseDups [] diagnostics.toList

/-! ## The lines that are named -/

/-- The numbers that follow references in a text, each once: one stands before another one only if it follows a
reference before the other one does. -/
structure FirstNumbers (text : List Char) (lines : List Nat) : Prop where
  nodup : lines.Nodup
  mem : ∀ n, n ∈ lines ↔ ∃ place, NumberAt text place n
  order : lines.Pairwise fun n m => ∀ place, NumberAt text place m → ∃ earlier < place, NumberAt text earlier n

theorem firstNumbers_diagnosticLines (diagnostics : String) :
    FirstNumbers diagnostics.toList (diagnosticLines diagnostics) := by
  have hfound := firstFound_eraseDups (number? diagnostics.toList) diagnostics.toList.length
  rw [← references_eq, ← diagnosticLines_eq] at hfound
  refine ⟨hfound.nodup, fun n => ?_, hfound.order.imp fun {n m} hnm place hm => ?_⟩
  · rw [diagnosticLines_eq, List.mem_eraseDups, mem_references]
  · obtain ⟨earlier, hearlier, hn⟩ := hnm place hm.lt (number?_eq_some.2 hm)
    exact ⟨earlier, hearlier, number?_eq_some.1 hn⟩

/-- There is one list of these numbers only. -/
theorem FirstNumbers.unique {text : List Char} {lines lines' : List Nat} (h : FirstNumbers text lines)
    (h' : FirstNumbers text lines') : lines = lines' := by
  have hperm : lines.Perm lines' :=
    (List.perm_ext_iff_of_nodup h.nodup h'.nodup).2 fun n => by rw [h.mem, h'.mem]
  refine hperm.eq_of_pairwise (fun n m _ hm hnm hmn => ?_) h.order h'.order
  -- of two numbers that each come before the other one, none has a first place
  have hnowhere : ∀ place, ¬NumberAt text place m := by
    intro place
    induction place using Nat.strong_induction_on with
    | _ place ih =>
      intro hplace
      obtain ⟨earlier, hearlier, hn⟩ := hnm place hplace
      obtain ⟨first, hfirst, hm⟩ := hmn earlier hn
      exact ih first (hfirst.trans hearlier) hm
  obtain ⟨place, hplace⟩ := (h'.mem m).1 hm
  exact absurd hplace (hnowhere place)

/-- **The lines that complaints name** are the numbers that directly follow a reference at some place, each once and
in the order in which they first do. -/
theorem diagnosticLines_eq_iff (diagnostics : String) (lines : List Nat) :
    diagnosticLines diagnostics = lines ↔ FirstNumbers diagnostics.toList lines := by
  constructor
  · rintro rfl
    exact firstNumbers_diagnosticLines diagnostics
  · exact (firstNumbers_diagnosticLines diagnostics).unique

end Attribution

end OpFusion
