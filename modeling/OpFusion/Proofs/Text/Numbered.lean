/-
  Numbered names in code.

  A numbered name is a letter `n`, digits and an underscore, wherever it stands in a text. A reader goes
  through a text one character after another and says whether it has come across a numbered name with other
  digits than those it is given (`Reading`); this can be said of texts piece by piece, as they are put
  together. A text is local to a number if the reader finds no other, and comes to its end outside of a
  name (`Local`).
-/
import OpFusion.Proofs.Text.Lines
import OpFusion.Proofs.Text.Separated

namespace OpFusion.Text

/-- Where a reader is: outside of a numbered name, behind its letter or behind some of its digits; or it has
come across a name with other digits. -/
inductive Reading where
  | outside
  | letter
  | digits (ds : List Char)
  | foreign
  deriving DecidableEq

namespace Reading

variable {own : List Char} {cs ds : List Char} {r : Reading}

/-- Where a reader of names with given digits is after one more character. -/
def step (own : List Char) (r : Reading) (c : Char) : Reading :=
  match r with
  | outside => if c = 'n' then letter else outside
  | letter => if c.isDigit then digits [c] else if c = 'n' then letter else outside
  | digits ds =>
    if c.isDigit then digits (ds ++ [c])
    else if c = '_' then if ds = own then outside else foreign
    else if c = 'n' then letter else outside
  | foreign => foreign

/-- Where a reader is after a text. -/
def after (own : List Char) (r : Reading) (cs : List Char) : Reading := cs.foldl (step own) r

@[simp] theorem after_nil (own : List Char) (r : Reading) : after own r [] = r := rfl

theorem after_append (own : List Char) (r : Reading) (cs ds : List Char) :
    after own r (cs ++ ds) = after own (after own r cs) ds := List.foldl_append

theorem after_foreign (own cs : List Char) : after own foreign cs = foreign := by
  induction cs with
  | nil => rfl
  | cons c cs ih => exact ih

theorem step_letter (hr : r ≠ foreign) : step own r 'n' = letter := by
  cases r with
  | outside => rfl
  | letter => rfl
  | digits ds => rfl
  | foreign => exact absurd rfl hr

theorem after_digits (hcs : ∀ c ∈ cs, c.isDigit = true) : after own (digits ds) cs = digits (ds ++ cs) := by
  induction cs generalizing ds with
  | nil => rw [List.append_nil]; rfl
  | cons c cs ih =>
    rw [after, List.foldl_cons, step, if_pos (hcs c (by simp)), ← after, ih fun x hx => hcs x (by simp [hx]),
      List.append_assoc, List.singleton_append]

theorem after_letter (hne : cs ≠ []) (hcs : ∀ c ∈ cs, c.isDigit = true) : after own letter cs = digits cs := by
  cases cs with
  | nil => exact absurd rfl hne
  | cons c cs =>
    rw [after, List.foldl_cons, step, if_pos (hcs c (by simp)), ← after,
      after_digits fun x hx => hcs x (by simp [hx]), List.singleton_append]

theorem after_outside_digits (hcs : ∀ c ∈ cs, c.isDigit = true) : after own outside cs = outside := by
  induction cs with
  | nil => rfl
  | cons c cs ih =>
    have hc : c ≠ 'n' := fun heq => absurd (hcs c (by simp)) (heq ▸ by decide)
    rw [after, List.foldl_cons, step, if_neg hc, ← after]
    exact ih fun x hx => hcs x (by simp [hx])

/-- **A reader that comes through a text has met no other digits.** -/
theorem eq_of_isInfix (h : after own outside cs ≠ foreign) (hne : ds ≠ []) (hds : ∀ c ∈ ds, c.isDigit = true)
    (hfound : 'n' :: ds ++ ['_'] <:+: cs) : ds = own := by
  obtain ⟨before, rest, rfl⟩ := hfound
  rw [after_append, after_append] at h
  have hbefore : after own outside before ≠ foreign := fun heq => by
    rw [heq, after_foreign, after_foreign] at h
    exact h rfl
  have hname : after own (after own outside before) ('n' :: ds ++ ['_']) =
      if ds = own then outside else foreign := by
    rw [List.cons_append, after, List.foldl_cons, step_letter hbefore, ← after, after_append,
      after_letter hne hds]
    rfl
  by_contra hown
  rw [hname, if_neg hown, after_foreign] at h
  exact h rfl

/-- A reader that comes through a text without any numbered name comes through it whatever its digits. -/
theorem after_eq (hr : r ≠ digits []) (h : after [] r cs ≠ foreign) : after own r cs = after [] r cs := by
  induction cs generalizing r with
  | nil => rfl
  | cons c cs ih =>
    have hstep : step [] r c ≠ digits [] ∧ (step [] r c ≠ foreign → step own r c = step [] r c) := by
      cases r with
      | outside => simp only [step]; split <;> simp
      | letter => simp only [step]; split <;> [simp; split] <;> simp
      | digits ds =>
        have hds : ds ≠ [] := fun heq => hr (heq ▸ rfl)
        simp only [step, hds, if_false]
        split
        · simp
        · split
          · simp
          · split <;> simp
      | foreign => simp [step]
    have hnot : step [] r c ≠ foreign := fun heq => h (by rw [after, List.foldl_cons, heq]; exact after_foreign [] cs)
    rw [after, after, List.foldl_cons, List.foldl_cons, hstep.2 hnot]
    exact ih hstep.1 h

end Reading

/-! ## Local texts -/

/-- The characters of a line of code: no slash, and nothing that ends a line. -/
def isCode (c : Char) : Bool := c ≠ '/' && c ≠ '\n' && c ≠ '\r'

/-- A text of code that takes a reader of names with given digits from one place to another. -/
structure Reads (own : List Char) (r : Reading) (s : String) (r' : Reading) : Prop where
  after : Reading.after own r s.toList = r'
  code : ∀ c ∈ s.toList, isCode c = true

/-- A text of code whose numbered names all have the same digits, and that does not end inside of one. -/
abbrev Local (own : List Char) (s : String) : Prop := Reads own .outside s .outside

variable {own : List Char} {s t : String} {r r' r'' : Reading}

theorem reads_ofList {cs : List Char} (h : cs.all isCode = true) (hafter : Reading.after own r cs = r') :
    Reads own r (String.ofList cs) r' :=
  ⟨by rw [String.toList_ofList, hafter], by rw [String.toList_ofList]; exact List.all_eq_true.1 h⟩

/-- A text without numbered names is local to every number. -/
theorem local_ofList {cs : List Char}
    (h : (Reading.after [] .outside cs == .outside && cs.all isCode) = true) : Local own (String.ofList cs) := by
  rw [Bool.and_eq_true, beq_iff_eq] at h
  refine reads_ofList h.2 ?_
  rw [Reading.after_eq (by simp) (by simp [h.1]), h.1]

theorem Reads.append (hs : Reads own r s r') (ht : Reads own r' t r'') : Reads own r (s ++ t) r'' where
  after := by rw [String.toList_append, Reading.after_append, hs.after, ht.after]
  code := by
    rw [String.toList_append]
    exact List.forall_mem_append.2 ⟨hs.code, ht.code⟩

theorem Local.append (hs : Local own s) (ht : Local own t) : Local own (s ++ t) := Reads.append hs ht

theorem local_intercalate {separator : String} (hsep : Local own separator) {items : List String}
    (h : ∀ item ∈ items, Local own item) : Local own (separator.intercalate items) := by
  induction items with
  | nil => exact ⟨rfl, by simp⟩
  | cons x items ih =>
    cases items with
    | nil => exact String.intercalate_singleton ▸ h x (by simp)
    | cons y items =>
      rw [String.intercalate_cons_cons]
      exact (Local.append (h x (by simp)) hsep).append (ih fun item hitem => h item (by simp [hitem]))

theorem toString_ne_nil (n : Nat) : (toString n).toList ≠ [] := by
  rw [Nat.toString_eq_ofList_toDigits, String.toList_ofList]
  exact Nat.toDigits_ne_nil

theorem code_toString (n : Nat) : ∀ c ∈ (toString n).toList, isCode c = true := by
  intro c hc
  have hdigit := isDigit_of_mem_toString hc
  have hne : ∀ d : Char, d.isDigit = false → c ≠ d := fun d hd heq => by rw [heq, hd] at hdigit; cases hdigit
  simp [isCode, hne '/' (by decide), hne '\n' (by decide), hne '\r' (by decide)]

theorem local_toString (n : Nat) : Local own (toString n) :=
  ⟨Reading.after_outside_digits fun _ => isDigit_of_mem_toString, code_toString n⟩

/-- A number behind the letter of a name. -/
theorem reads_number (n : Nat) : Reads own .letter (toString n) (.digits (toString n).toList) :=
  ⟨Reading.after_letter (toString_ne_nil n) fun _ => isDigit_of_mem_toString, code_toString n⟩

/-! ## Lines of local texts -/

/-- Blanks in front do not matter for what begins with a letter. -/
theorem infix_of_blanks {n : Nat} {cs ds : List Char} (h : 'n' :: ds <:+: List.replicate n ' ' ++ cs) :
    'n' :: ds <:+: cs := by
  induction n with
  | zero => exact h
  | succ n ih =>
    rw [List.replicate_succ, List.cons_append, List.infix_cons_iff] at h
    rcases h with h | h
    · exact absurd (List.cons_prefix_cons.1 h).1 (by decide)
    · exact ih h

/-- **A line of a local text has no name with another number.** -/
theorem Placed.number_eq {level indent : Nat} {line : List Char}
    (h : Placed level (List.replicate indent ' ' ++ s.toList) line) (hs : Local own s) {n : Nat}
    {rest : List Char} (hname : 'n' :: (toString n).toList ++ '_' :: rest <:+: line) :
    (toString n).toList = own := by
  have htag : 'n' :: (toString n).toList ++ ['_'] <:+: line :=
    List.IsInfix.trans ⟨[], rest, by simp⟩ hname
  have hfound : 'n' :: (toString n).toList ++ ['_'] <:+: s.toList := by
    rcases h with rfl | ⟨body, rfl, hbody⟩
    · simp at htag
    · exact infix_of_blanks ((infix_of_blanks htag).trans hbody)
  have hreads : Reading.after own .outside s.toList ≠ .foreign := by simp [hs.after]
  exact Reading.eq_of_isInfix hreads (toString_ne_nil n) (fun _ => isDigit_of_mem_toString) hfound

end OpFusion.Text
