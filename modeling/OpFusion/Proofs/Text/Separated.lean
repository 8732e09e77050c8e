/-
  Texts that are put together with separators can be taken apart.

  A character that one side does not have tells where two texts were joined. So items are told apart if
  they do not have the first character of what stands between them (`intercalate_inj`), and lines up to
  one that ends them (`lines_inj`).
-/
import Mathlib

namespace OpFusion.Text

variable {c : Char}

/-- The first of a character tells what stands before it and after it. -/
theorem append_cons_inj_first {before after before' after' : List Char} (h : c ∉ before)
    (h' : c ∉ before') (heq : before ++ c :: after = before' ++ c :: after') :
    before = before' ∧ after = after' := by
  induction before generalizing before' with
  | nil =>
    cases before' with
    | nil => exact ⟨rfl, (List.cons.inj heq).2⟩
    | cons y before' => exact absurd (List.cons.inj heq).1 (List.ne_of_not_mem_cons h')
  | cons x before ih =>
    cases before' with
    | nil => exact absurd (List.cons.inj heq).1.symm (List.ne_of_not_mem_cons h)
    | cons y before' =>
      obtain ⟨rfl, htail⟩ := List.cons.inj heq
      obtain ⟨rfl, hafter⟩ := ih (List.not_mem_of_not_mem_cons h) (List.not_mem_of_not_mem_cons h') htail
      exact ⟨rfl, hafter⟩

/-- The last of a character tells what stands before it and after it. -/
theorem append_cons_inj_last {before after before' after' : List Char} (h : c ∉ after) (h' : c ∉ after')
    (heq : before ++ c :: after = before' ++ c :: after') : before = before' ∧ after = after' := by
  have hreverse : after.reverse ++ c :: before.reverse = after'.reverse ++ c :: before'.reverse := by
    simpa using congrArg List.reverse heq
  obtain ⟨hafter, hbefore⟩ := append_cons_inj_first (by simpa using h) (by simpa using h') hreverse
  exact ⟨List.reverse_inj.1 hbefore, List.reverse_inj.1 hafter⟩

theorem mem_intercalate {sep : String} {items : List String} (h : c ∈ (sep.intercalate items).toList) :
    c ∈ sep.toList ∨ ∃ item ∈ items, c ∈ item.toList := by
  induction items with
  | nil => simp at h
  | cons x items ih =>
    cases items with
    | nil => exact .inr ⟨x, by simp, by simpa using h⟩
    | cons y items =>
      rw [String.intercalate_cons_cons, String.toList_append, String.toList_append, List.mem_append,
        List.mem_append] at h
      rcases h with (h | h) | h
      · exact .inr ⟨x, by simp, h⟩
      · exact .inl h
      · rcases ih h with h | ⟨item, hitem, h⟩
        · exact .inl h
        · exact .inr ⟨item, List.mem_cons_of_mem _ hitem, h⟩

/-- Items are told apart if they do not have the first character of what stands between them. -/
theorem intercalate_inj {sep : String} {rest : List Char} (hsep : sep.toList = c :: rest)
    {items items' : List String} (hne : items ≠ []) (hne' : items' ≠ [])
    (h : ∀ item ∈ items, c ∉ item.toList) (h' : ∀ item ∈ items', c ∉ item.toList)
    (heq : sep.intercalate items = sep.intercalate items') : items = items' := by
  have hjoin : ∀ x y items, (sep.intercalate (x :: y :: items)).toList =
      x.toList ++ c :: (rest ++ (sep.intercalate (y :: items)).toList) := by
    intro x y items
    rw [String.intercalate_cons_cons, String.toList_append, String.toList_append, hsep,
      List.append_assoc, List.cons_append]
  induction items generalizing items' with
  | nil => exact absurd rfl hne
  | cons x items ih =>
    obtain ⟨y, items', rfl⟩ := List.exists_cons_of_ne_nil hne'
    have hx := h x (by simp)
    have hy := h' y (by simp)
    replace heq := congrArg String.toList heq
    cases items with
    | nil =>
      cases items' with
      | nil =>
        rw [String.intercalate_singleton, String.intercalate_singleton] at heq
        rw [String.toList_inj.1 heq]
      | cons y' items' =>
        rw [hjoin, String.intercalate_singleton] at heq
        exact absurd (heq ▸ by simp : c ∈ x.toList) hx
    | cons x' items =>
      cases items' with
      | nil =>
        rw [hjoin, String.intercalate_singleton] at heq
        exact absurd (heq ▸ by simp : c ∈ y.toList) hy
      | cons y' items' =>
        rw [hjoin, hjoin] at heq
        obtain ⟨hhead, htail⟩ := append_cons_inj_first hx hy heq
        rw [String.toList_inj.1 hhead, ih (by simp) (by simp)
          (fun item hitem => h item (List.mem_cons_of_mem _ hitem))
          (fun item hitem => h' item (List.mem_cons_of_mem _ hitem))
          (String.toList_inj.1 (List.append_cancel_left htail))]

/-- Lines are told apart up to the first that ends them, whatever follows. -/
theorem lines_inj {stop : List Char} {lines lines' : List (List Char)} {rest rest' : List Char}
    (hstop : '\n' ∉ stop) (h : ∀ line ∈ lines, '\n' ∉ line ∧ line ≠ stop)
    (h' : ∀ line ∈ lines', '\n' ∉ line ∧ line ≠ stop)
    (heq : lines.flatMap (· ++ ['\n']) ++ (stop ++ '\n' :: rest) =
      lines'.flatMap (· ++ ['\n']) ++ (stop ++ '\n' :: rest')) : lines = lines' := by
  induction lines generalizing lines' with
  | nil =>
    cases lines' with
    | nil => rfl
    | cons line' lines' =>
      simp only [List.flatMap_nil, List.nil_append, List.flatMap_cons, List.append_assoc,
        List.singleton_append] at heq
      obtain ⟨hline, -⟩ := append_cons_inj_first hstop (h' line' (by simp)).1 heq
      exact absurd hline.symm (h' line' (by simp)).2
  | cons line lines ih =>
    cases lines' with
    | nil =>
      simp only [List.flatMap_nil, List.nil_append, List.flatMap_cons, List.append_assoc,
        List.singleton_append] at heq
      obtain ⟨hline, -⟩ := append_cons_inj_first (h line (by simp)).1 hstop heq
      exact absurd hline (h line (by simp)).2
    | cons line' lines' =>
      simp only [List.flatMap_cons, List.append_assoc, List.singleton_append] at heq
      obtain ⟨rfl, hrest⟩ := append_cons_inj_first (h line (by simp)).1 (h' line' (by simp)).1 heq
      rw [ih (fun l hl => h l (List.mem_cons_of_mem _ hl)) (fun l hl => h' l (List.mem_cons_of_mem _ hl))
        hrest]

theorem isDigit_of_mem_toString {n : Nat} (h : c ∈ (toString n).toList) : c.isDigit = true := by
  rw [Nat.toString_eq_ofList_toDigits, String.toList_ofList] at h
  exact Nat.isDigit_of_mem_toDigits (by decide) (by decide) h

theorem isAlphanum_of_mem_toString {n : Nat} (h : c ∈ (toString n).toList) : c.isAlphanum = true := by
  rw [Char.isAlphanum, isDigit_of_mem_toString h, Bool.or_true]

end OpFusion.Text
