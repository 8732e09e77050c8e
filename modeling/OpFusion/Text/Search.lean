/-
  Occurrences of one text in another: whether there is one, and replacing all of them from the left.
-/

namespace OpFusion.Text

/-- Whether `pattern` stands somewhere in the text. -/
def occursIn (pattern : List Char) : List Char → Bool
  | [] => pattern.isEmpty
  | c :: cs => pattern.isPrefixOf (c :: cs) || occursIn pattern cs

/-- The text after the first occurrence of `pattern`. -/
def afterFirst? (pattern : List Char) : List Char → Option (List Char)
  | [] => if pattern.isEmpty then some [] else none
  | c :: cs =>
    if pattern.isPrefixOf (c :: cs) then some ((c :: cs).drop pattern.length)
    else afterFirst? pattern cs

/-- What follows an occurrence is shorter than the text. -/
theorem length_lt_of_afterFirst? {pattern text rest : List Char} (hpattern : pattern ≠ [])
    (h : afterFirst? pattern text = some rest) : rest.length < text.length := by
  induction text with
  | nil => simp [afterFirst?, hpattern] at h
  | cons c cs ih =>
    rw [afterFirst?] at h
    split at h
    · cases h
      have hpos := List.length_pos_iff.2 hpattern
      simp only [List.length_drop, List.length_cons]
      omega
    · exact Nat.lt_succ_of_lt (ih h)

/-- The text with each occurrence of a pattern that is not empty replaced. -/
def replaceAll (pattern new : List Char) : List Char → List Char
  | [] => []
  | c :: cs =>
    if pattern.isPrefixOf (c :: cs) && !pattern.isEmpty then
      new ++ replaceAll pattern new (cs.drop (pattern.length - 1))
    else c :: replaceAll pattern new cs
termination_by cs => cs.length
decreasing_by all_goals simp only [List.length_drop, List.length_cons]; omega

/-- The text after `start`, if it starts so. -/
def dropPrefix? : (start text : List Char) → Option (List Char)
  | [], text => some text
  | _ :: _, [] => none
  | c :: start, d :: text => if c = d then dropPrefix? start text else none

end OpFusion.Text
