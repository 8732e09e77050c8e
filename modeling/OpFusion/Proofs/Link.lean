/-
  Requirements are collected in the order of their first mention.

  A list grows at its end only (`prefix_union`), by what is new in another one, so that a union that starts
  empty keeps the first of equal items (`union_nil_left`). To add two lists one after the other is to add
  their union (`union_assoc`), repetitions or not. Requirements are seven such lists (`get_merge`).
-/
import Mathlib
import OpFusion.Link

namespace OpFusion.Link

variable {items more : List String} {item x : String}

/-! ## One list -/

theorem pushUnique_of_mem (h : item ∈ items) : pushUnique items item = items := if_pos h

theorem mem_pushUnique : x ∈ pushUnique items item ↔ x ∈ items ∨ x = item := by
  unfold pushUnique
  split
  · next h =>
    constructor
    · exact Or.inl
    · rintro (hx | rfl)
      · exact hx
      · exact h
  · simp

theorem prefix_pushUnique (items : List String) (item : String) : items <+: pushUnique items item := by
  unfold pushUnique
  split
  · exact List.prefix_refl _
  · exact List.prefix_append _ _

theorem nodup_pushUnique (h : items.Nodup) (item : String) : (pushUnique items item).Nodup := by
  unfold pushUnique
  split
  · exact h
  · next hnew => exact List.nodup_append_comm.1 (List.nodup_cons.2 ⟨hnew, h⟩)

@[simp] theorem union_nil (items : List String) : union items [] = items := rfl

theorem union_append (items xs ys : List String) : union items (xs ++ ys) = union (union items xs) ys :=
  List.foldl_append

theorem mem_union : x ∈ union items more ↔ x ∈ items ∨ x ∈ more := by
  induction more generalizing items with
  | nil => simp
  | cons y more ih =>
    have hstep : x ∈ union items (y :: more) ↔ x ∈ pushUnique items y ∨ x ∈ more := ih
    rw [hstep, mem_pushUnique, List.mem_cons, or_assoc]

theorem prefix_union (items more : List String) : items <+: union items more := by
  induction more generalizing items with
  | nil => exact List.prefix_refl _
  | cons y more ih => exact (prefix_pushUnique items y).trans (ih _)

theorem nodup_union (h : items.Nodup) (more : List String) : (union items more).Nodup := by
  induction more generalizing items with
  | nil => exact h
  | cons y more ih => exact ih (nodup_pushUnique h y)

/-- Nothing is added that is there already. -/
theorem union_of_subset (h : ∀ x ∈ more, x ∈ items) : union items more = items := by
  induction more with
  | nil => rfl
  | cons y more ih =>
    have hstep : union items (y :: more) = union (pushUnique items y) more := rfl
    rw [hstep, pushUnique_of_mem (h y (by simp)), ih fun x hx => h x (by simp [hx])]

/-- An item that was dropped from a list would have been dropped from the union too. -/
theorem union_pushUnique (items more : List String) (item : String) :
    union items (pushUnique more item) = pushUnique (union items more) item := by
  by_cases h : item ∈ more
  · rw [pushUnique_of_mem h, pushUnique_of_mem (mem_union.2 (.inr h))]
  · rw [pushUnique, if_neg h, union_append]
    rfl

/-- **Two lists one after the other are their union.** -/
theorem union_assoc (items xs ys : List String) : union (union items xs) ys = union items (union xs ys) := by
  induction ys generalizing xs with
  | nil => rfl
  | cons y ys ih =>
    have hstep : ∀ zs : List String, union zs (y :: ys) = union (pushUnique zs y) ys := fun _ => rfl
    rw [hstep, hstep, ← union_pushUnique, ih]

/-- **A union that starts empty keeps the first of equal items.** -/
theorem union_nil_left (items : List String) : union [] items = items.eraseDups := by
  induction items using List.reverseRecOn with
  | nil => rfl
  | append_singleton items item ih =>
    have hstep : union [] (items ++ [item]) = pushUnique items.eraseDups item := by
      rw [union_append, ih]
      rfl
    rw [hstep, List.eraseDups_append]
    by_cases h : item ∈ items
    · have hnone : [item].removeAll items = [] := by simp [List.removeAll, h]
      rw [pushUnique_of_mem (List.mem_eraseDups.2 h), hnone, List.eraseDups_nil, List.append_nil]
    · have hone : [item].removeAll items = [item] := by simp [List.removeAll, h]
      rw [pushUnique, if_neg (mt List.mem_eraseDups.1 h), hone]
      rfl

/-! ## All lists -/

/-- The list of a field. -/
def get (a : Link) : Field → List String
  | .headers => a.headers
  | .libraries => a.libraries
  | .libDirs => a.libDirs
  | .includeDirs => a.includeDirs
  | .compileFlags => a.compileFlags
  | .linkFlags => a.linkFlags
  | .initCode => a.initCode

variable {a b : Link}

theorem ext_get (h : ∀ field, a.get field = b.get field) : a = b := by
  cases a
  cases b
  simp only [mk.injEq]
  exact ⟨h .headers, h .libraries, h .libDirs, h .includeDirs, h .compileFlags, h .linkFlags, h .initCode⟩

@[simp] theorem get_empty (field : Field) : get {} field = [] := by cases field <;> rfl

@[simp] theorem get_merge (a b : Link) (field : Field) :
    (a.merge b).get field = union (a.get field) (b.get field) := by
  cases field <;> rfl

theorem merge_assoc (a b c : Link) : (a.merge b).merge c = a.merge (b.merge c) :=
  ext_get fun field => by simp only [get_merge, union_assoc]

theorem merge_self (a : Link) : a.merge a = a :=
  ext_get fun field => by rw [get_merge, union_of_subset fun _ hx => hx]

theorem merge_empty (a : Link) : a.merge {} = a :=
  ext_get fun field => by rw [get_merge, get_empty, union_nil]

end OpFusion.Link
