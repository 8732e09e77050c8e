/-
  Tables: lists of pairs of a key and a value, in which the first pair of a key counts.

  Main statements: a table without a key has no value there and all others, and a table with a new value
  has that value there and all others.
-/

namespace OpFusion.Table

variable {K V : Type} [DecidableEq K]

/-- The table without a key. -/
def erase (t : List (K × V)) (k : K) : List (K × V) := t.filter (·.1 ≠ k)

/-- The table with a value for a key. -/
def insert (t : List (K × V)) (k : K) (v : V) : List (K × V) := (k, v) :: erase t k

theorem lookup_pair (t : List (K × V)) (k j : K) (v : V) :
    ((k, v) :: t).lookup j = if j = k then some v else t.lookup j := by
  rw [List.lookup_cons]
  by_cases h : j = k
  · simp [h]
  · simp [h, beq_eq_false_iff_ne.2 h]

@[simp]
theorem lookup_erase (t : List (K × V)) (k j : K) :
    (erase t k).lookup j = if j = k then none else t.lookup j := by
  induction t with
  | nil => simp [erase]
  | cons p t ih =>
    obtain ⟨i, v⟩ := p
    rw [lookup_pair]
    by_cases hi : i = k
    · have hskip : erase ((i, v) :: t) k = erase t k := by simp [erase, hi]
      rw [hskip, ih, hi]
      by_cases hj : j = k <;> simp [hj]
    · have hkeep : erase ((i, v) :: t) k = (i, v) :: erase t k := by simp [erase, hi]
      rw [hkeep, lookup_pair, ih]
      by_cases hj : j = i
      · simp [hj, hi]
      · simp [hj]

@[simp]
theorem lookup_insert (t : List (K × V)) (k j : K) (v : V) :
    (insert t k v).lookup j = if j = k then some v else t.lookup j := by
  rw [insert, lookup_pair, lookup_erase]
  by_cases h : j = k <;> simp [h]

end OpFusion.Table
