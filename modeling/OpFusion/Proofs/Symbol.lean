/-
  Names are identifiers, and tell how long the text was that they were made from.
-/
import OpFusion.Proofs.Text.Separated
import OpFusion.Symbol

namespace OpFusion.Symbol

variable {c : Char}

theorem isPart_part (c : Char) : isPart (part c) = true := by
  unfold part
  split
  · assumption
  · decide

theorem isPart_of_mem_sanitizeChars {cs : List Char} (h : c ∈ sanitizeChars cs) : isPart c = true := by
  cases cs with
  | nil =>
    rw [sanitizeChars, List.mem_cons, List.mem_singleton] at h
    rcases h with rfl | rfl <;> decide
  | cons x cs =>
    rw [sanitizeChars, List.mem_append] at h
    rcases h with h | h
    · obtain rfl : c = '_' := by
        split at h
        · exact List.mem_singleton.1 h
        · cases h
      decide
    · obtain ⟨y, -, rfl⟩ := List.mem_map.1 h
      exact isPart_part y

/-- The name of an application is an identifier. -/
theorem isPart_of_mem_application {position : Nat} {kind : String}
    (h : c ∈ (application position kind).toList) : isPart c = true := by
  simp only [application, String.toList_append, List.mem_append] at h
  rcases h with ((h | h) | h) | h
  · rw [List.mem_singleton.1 h]
    decide
  · rw [isPart, Text.isAlphanum_of_mem_toString h, Bool.true_or]
  · rw [List.mem_singleton.1 h]
    decide
  · rw [sanitize, String.toList_ofList] at h
    exact isPart_of_mem_sanitizeChars h

theorem sanitizeChars_eq {position : Nat} {kind kind' : String}
    (h : (application position kind).toList = (application position kind').toList) :
    sanitizeChars kind.toList = sanitizeChars kind'.toList := by
  simpa [application, sanitize] using h

/-- Two texts of one identifier are told apart by their ends, as an underscore is put before a digit only. -/
theorem eq_of_sanitizeChars_eq {kind kind' rest rest' : List Char}
    (h : sanitizeChars kind = sanitizeChars kind') (heq : kind ++ '(' :: rest = kind' ++ '(' :: rest') :
    kind = kind' ∧ rest = rest' := by
  cases kind with
  | nil =>
    cases kind' with
    | nil => exact ⟨rfl, (List.cons.inj heq).2⟩
    | cons y cs' =>
      obtain ⟨rfl, -⟩ := List.cons.inj heq
      exact absurd (List.cons.inj h).1 (by decide)
  | cons x cs =>
    cases kind' with
    | nil =>
      obtain ⟨rfl, -⟩ := List.cons.inj heq
      exact absurd (List.cons.inj h).1 (by decide)
    | cons y cs' =>
      obtain ⟨rfl, htail⟩ := List.cons.inj heq
      rw [sanitizeChars, sanitizeChars] at h
      have hlength : cs.length = cs'.length := by
        simpa using congrArg List.length (List.append_cancel_left h)
      obtain ⟨rfl, hrest⟩ := List.append_inj htail hlength
      exact ⟨rfl, (List.cons.inj hrest).2⟩

end OpFusion.Symbol
