/-
  Literals stand for the texts they were written from.

  `simple?` reads the inside of a literal in which every backslash begins a simple form: it refuses a quote, a
  backslash or a line feed that stands for itself. What it reads has no end of a literal in it
  (`splitQuoted_of_simple?`), and stands for the same text with all backslash forms
  (`literalFrom_of_simple?`). An escaped text is read as that text (`simple?_escapeChars`), and each of its
  question marks stands behind a backslash (`masked_escapeChars`).
-/
import Mathlib
import OpFusion.Source.Token

namespace OpFusion.Source

variable {c d : Char} {cs text : List Char}

/-! ## Simple forms -/

/-- The simple backslash forms: the character behind the backslash, and what they stand for. -/
def simpleForms : List (Char × Char) :=
  [('\x27', '\x27'), ('"', '"'), ('?', '?'), ('\\', '\\'), ('a', '\x07'), ('b', '\x08'), ('f', '\x0c'),
    ('n', '\n'), ('r', '\r'), ('t', '\t'), ('v', '\x0b')]

/-- The text that the inside of a literal stands for, if it has simple forms only. -/
def simple? : List Char → Option (List Char)
  | [] => some []
  | '\\' :: d :: cs => (simpleForms.lookup d).bind fun c => (simple? cs).map (c :: ·)
  | c :: cs => if c ∈ ['\\', '"', '\n'] then none else (simple? cs).map (c :: ·)

/-- A simple form has a plain character, which neither ends a line nor begins a longer form, and stands for
what is said there. -/
theorem simpleForm_of_lookup (h : simpleForms.lookup d = some c) :
    d.utf8Size = 1 ∧ d ≠ '\n' ∧ d ≠ '\r' ∧ Escape.start? d = none ∧ simpleEscape d = c := by
  have hforms : ∀ form ∈ simpleForms, form.1.utf8Size = 1 ∧ form.1 ≠ '\n' ∧ form.1 ≠ '\r' ∧
      Escape.start? form.1 = none ∧ simpleEscape form.1 = form.2 := by decide
  obtain ⟨before, after, heq, -⟩ := List.lookup_eq_some_iff.1 h
  exact hforms (d, c) (by simp [heq])

/-! ## Reading -/

theorem newline_notMem_of_simple? (h : simple? cs = some text) : '\n' ∉ cs := by
  fun_induction simple? cs generalizing text with
  | case1 => simp
  | case2 d cs ih =>
    obtain ⟨c, hform, h⟩ := Option.bind_eq_some_iff.1 h
    obtain ⟨rest, hrest, -⟩ := Option.map_eq_some_iff.1 h
    simp [ih hrest, (simpleForm_of_lookup hform).2.1.symm]
  | case3 c cs hpair hmem => cases h
  | case4 c cs hpair hmem ih =>
    obtain ⟨rest, hrest, -⟩ := Option.map_eq_some_iff.1 h
    simp only [List.mem_cons, List.not_mem_nil, or_false, not_or] at hmem
    simp [ih hrest, Ne.symm hmem.2.2]

/-- The literal ends at the quote behind what was read, and nowhere before. -/
theorem splitQuoted_of_simple? (h : simple? cs = some text) (rest : List Char) :
    splitQuoted '"' (cs ++ '"' :: rest) = (cs, rest) := by
  fun_induction simple? cs generalizing text with
  | case1 => simp [splitQuoted]
  | case2 d cs ih =>
    obtain ⟨c, -, h⟩ := Option.bind_eq_some_iff.1 h
    obtain ⟨tail, htail, -⟩ := Option.map_eq_some_iff.1 h
    rw [List.cons_append, List.cons_append, splitQuoted, ih htail]
  | case3 c cs hpair hmem => cases h
  | case4 c cs hpair hmem ih =>
    obtain ⟨tail, htail, -⟩ := Option.map_eq_some_iff.1 h
    simp only [List.mem_cons, List.not_mem_nil, or_false, not_or] at hmem
    rw [List.cons_append, splitQuoted, if_neg hmem.2.1, ih htail]
    intro d ds hc
    exact absurd hc hmem.1

/-- With simple forms only, all forms of a literal stand for what `simple?` reads. -/
theorem literalFrom_of_simple? {α : Type} (encode : Char → List α) (unit : Nat → α) (h : simple? cs = some text) :
    literalFrom encode unit .closed cs = text.flatMap encode := by
  fun_induction simple? cs generalizing text with
  | case1 =>
    cases h
    rfl
  | case2 d cs ih =>
    obtain ⟨c, hform, h⟩ := Option.bind_eq_some_iff.1 h
    obtain ⟨tail, htail, rfl⟩ := Option.map_eq_some_iff.1 h
    obtain ⟨-, -, -, hstart, hescape⟩ := simpleForm_of_lookup hform
    have hopen : literalFrom encode unit .closed ('\\' :: d :: cs) =
        literalFrom encode unit .backslash (d :: cs) := rfl
    rw [hopen, literalFrom, hstart, hescape, List.flatMap_cons, ih htail]
  | case3 c cs hpair hmem => cases h
  | case4 c cs hpair hmem ih =>
    obtain ⟨tail, htail, rfl⟩ := Option.map_eq_some_iff.1 h
    simp only [List.mem_cons, List.not_mem_nil, or_false, not_or] at hmem
    have hplain : literalFrom encode unit .closed (c :: cs) =
        encode c ++ literalFrom encode unit .closed cs := by
      simp [literalFrom, Escape.extend?, Escape.units, hmem.1]
    rw [hplain, List.flatMap_cons, ih htail]

theorem literalBytes_of_simple? (h : simple? cs = some text) : literalBytes cs = Utf8.encode text :=
  literalFrom_of_simple? _ _ h

/-! ## Writing -/

/-- A character is written as it is, or in a simple form. -/
theorem escapeChar_cases (c : Char) :
    escapeChar c = [c] ∧ c ∉ ['\\', '"', '\n', '\r', '?'] ∨
      ∃ d, escapeChar c = ['\\', d] ∧ simpleForms.lookup d = some c := by
  unfold escapeChar
  split
  · next h =>
    subst h
    exact .inr ⟨'\\', rfl, rfl⟩
  split
  · next h =>
    subst h
    exact .inr ⟨'"', rfl, rfl⟩
  split
  · next h =>
    subst h
    exact .inr ⟨'n', rfl, rfl⟩
  split
  · next h =>
    subst h
    exact .inr ⟨'r', rfl, rfl⟩
  split
  · next h =>
    subst h
    exact .inr ⟨'t', rfl, rfl⟩
  split
  · next h =>
    subst h
    exact .inr ⟨'?', rfl, rfl⟩
  · next hslash hquote hnewline hreturn _ hmark =>
    exact .inl ⟨rfl, by simp [hslash, hquote, hnewline, hreturn, hmark]⟩

theorem simple?_escapeChar_append (c : Char) (rest : List Char) :
    simple? (escapeChar c ++ rest) = (simple? rest).map (c :: ·) := by
  rcases escapeChar_cases c with ⟨hsame, hc⟩ | ⟨d, hform, hlookup⟩
  · simp only [List.mem_cons, List.not_mem_nil, or_false, not_or] at hc
    rw [hsame, List.singleton_append, simple?, if_neg (by simp [hc])]
    intro d ds hslash
    exact absurd hslash hc.1
  · rw [hform, List.cons_append, List.singleton_append, simple?, hlookup]
    rfl

/-- **An escaped text is read as that text.** -/
theorem simple?_escapeChars (cs : List Char) : simple? (escapeChars cs) = some cs := by
  induction cs with
  | nil => rfl
  | cons c cs ih =>
    rw [escapeChars, List.flatMap_cons, ← escapeChars, simple?_escapeChar_append, ih]
    rfl

theorem return_notMem_escapeChars (cs : List Char) : '\r' ∉ escapeChars cs := by
  intro h
  obtain ⟨c, -, h⟩ := List.mem_flatMap.1 h
  rcases escapeChar_cases c with ⟨hsame, hc⟩ | ⟨d, hform, hlookup⟩
  · rw [hsame, List.mem_singleton] at h
    simp [← h] at hc
  · rw [hform, List.mem_cons, List.mem_singleton] at h
    rcases h with h | h
    · exact absurd h (by decide)
    · exact (simpleForm_of_lookup hlookup).2.2.1 h.symm

/-- Every question mark but the first character stands behind a backslash. -/
def Masked (cs : List Char) : Prop := cs.IsChain fun c d => d = '?' → c = '\\'

theorem masked_escapeChar (c : Char) : Masked (escapeChar c) ∧ (escapeChar c).head? ≠ some '?' := by
  rcases escapeChar_cases c with ⟨hsame, hc⟩ | ⟨d, hform, -⟩
  · simp only [List.mem_cons, List.not_mem_nil, or_false, not_or] at hc
    rw [hsame]
    exact ⟨.singleton c, by simp [hc]⟩
  · rw [hform]
    exact ⟨.cons_cons (fun _ => rfl) (.singleton d), by simp⟩

theorem masked_escapeChars (cs : List Char) : Masked (escapeChars cs) ∧ (escapeChars cs).head? ≠ some '?' := by
  induction cs with
  | nil => exact ⟨.nil, by simp [escapeChars]⟩
  | cons c cs ih =>
    obtain ⟨hc, hhead⟩ := masked_escapeChar c
    rw [escapeChars, List.flatMap_cons, ← escapeChars]
    refine ⟨List.isChain_append.2 ⟨hc, ih.1, ?_⟩, ?_⟩
    · rintro x - y hy rfl
      exact absurd hy ih.2
    · rw [List.head?_append]
      cases hfirst : (escapeChar c).head? with
      | none => exact ih.2
      | some x => rwa [← hfirst, Option.or_eq_left_of_isSome (by simp [hfirst])]

/-- Two question marks never stand side by side. -/
theorem Masked.not_isInfix (h : Masked cs) : ¬ ['?', '?'] <:+: cs := by
  rintro ⟨before, after, rfl⟩
  rw [List.append_assoc] at h
  exact absurd ((List.isChain_append_cons_cons.1 h).2.1 rfl) (by decide)

/-! ## Texts without a null -/

theorem cText_eq {s : String} (h : '\x00' ∉ s.toList) : cText s = s := by
  have hall : ∀ l : List Char, '\x00' ∉ l → l.takeWhile (· ≠ '\x00') = l := by
    intro l hl
    induction l with
    | nil => rfl
    | cons c l ih =>
      simp only [List.mem_cons, not_or] at hl
      rw [List.takeWhile_cons_of_pos (by simpa using Ne.symm hl.1), ih hl.2]
  rw [cText, hall _ h, String.ofList_toList]

/-! ## Tokens -/

theorem tokensFrom_nil (acc : List Token) : tokensFrom acc [] = acc.reverse := by
  unfold tokensFrom
  rfl

theorem tokensFrom_literal (acc : List Token) (cs : List Char) : tokensFrom acc ('"' :: cs) =
    tokensFrom (.literal .plain (splitQuoted '"' cs).1 :: acc) (splitQuoted '"' cs).2 := by
  conv => lhs; unfold tokensFrom
  rfl

/-- A mark that no longer one begins with is a token of its own. -/
theorem tokensFrom_mark {m : Char} (hm : m ∈ ['(', ')', ';']) (acc : List Token) (cs : List Char) :
    tokensFrom acc (m :: cs) = tokensFrom (.mark (String.singleton m) :: acc) cs := by
  have hplain : isSpace m = false ∧ startsNumber m cs = false ∧ isNameChar m = false ∧
      markAt m cs = String.singleton m ∧ otherMarks.lookup (String.singleton m) = none ∧
      m ∉ ['/', '"', '\x27'] := by
    simp only [List.mem_cons, List.not_mem_nil, or_false] at hm
    rcases hm with rfl | rfl | rfl <;> exact ⟨by decide, rfl, by decide, rfl, by decide, by decide⟩
  obtain ⟨hspace, hnumber, hname, hmark, hother, hne⟩ := hplain
  simp only [List.mem_cons, List.not_mem_nil, or_false, not_or] at hne
  conv => lhs; unfold tokensFrom
  simp [hspace, hnumber, hname, hmark, hother, hne]

end OpFusion.Source
