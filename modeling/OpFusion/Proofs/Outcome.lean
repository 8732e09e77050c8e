/-
  Outcomes of steps that may fail: a sequence of steps succeeds if each of them does.
-/
import Mathlib

namespace OpFusion.Outcome

variable {ε ε' α β : Type}

theorem isOk_iff {x : Except ε α} : x.isOk = true ↔ ∃ a, x = .ok a := by
  cases x <;> simp [Except.isOk, Except.toBool]

/-- A function that has a value for every item maps the list. -/
theorem mapM_eq_some_map {f : α → Option β} {g : α → β} {l : List α} (h : ∀ a ∈ l, f a = some (g a)) :
    l.mapM f = some (l.map g) := by
  induction l with
  | nil => rfl
  | cons a l ih =>
    rw [List.mapM_cons, h a (by simp), ih fun a' ha => h a' (by simp [ha])]
    rfl

/-- A list is not mapped if the function has no value for some item. -/
theorem mapM_eq_none_iff {f : α → Option β} {l : List α} : l.mapM f = none ↔ ∃ a ∈ l, f a = none := by
  induction l with
  | nil => simp
  | cons a l ih =>
    rw [List.mapM_cons]
    cases ha : f a with
    | none => simp [ha]
    | some b => cases hl : l.mapM f <;> simp_all

/-- The results stand at the positions of their items. -/
theorem getElem?_mapM {f : α → Option β} {l : List α} {r : List β} (h : l.mapM f = some r) (i : Nat) :
    r[i]? = l[i]?.bind f := by
  induction l generalizing r i with
  | nil =>
    cases h
    rfl
  | cons a l ih =>
    rw [List.mapM_cons] at h
    obtain ⟨b, hb, h⟩ := Option.bind_eq_some_iff.1 h
    obtain ⟨r', hr', h⟩ := Option.bind_eq_some_iff.1 h
    cases h
    cases i with
    | zero => exact hb.symm
    | succ i => exact ih hr' i

theorem bind_eq_ok {x : Except ε α} {f : α → Except ε β} {r : β} :
    (x >>= f) = .ok r ↔ ∃ a, x = .ok a ∧ f a = .ok r := by
  cases x with
  | error e => simp [bind, Except.bind]
  | ok a => simp [bind, Except.bind]

theorem mapError_eq_ok {x : Except ε α} {f : ε → ε'} {a : α} :
    x.mapError f = .ok a ↔ x = .ok a := by
  cases x <;> simp [Except.mapError]

theorem map_eq_ok {x : Except ε α} {f : α → β} {r : β} :
    x.map f = .ok r ↔ ∃ a, x = .ok a ∧ f a = r := by
  cases x <;> simp [Except.map]

/-- A sequence of steps fails as one of them does. -/
theorem exists_of_mapM_eq_error {f : α → Except ε β} {l : List α} {e : ε}
    (h : l.mapM f = .error e) : ∃ a ∈ l, f a = .error e := by
  induction l with
  | nil => cases h
  | cons a l ih =>
    rw [List.mapM_cons] at h
    cases hfa : f a with
    | error e' =>
      rw [hfa] at h
      cases h
      exact ⟨a, by simp, hfa⟩
    | ok b =>
      rw [hfa] at h
      cases hrest : l.mapM f with
      | error e' =>
        rw [hrest] at h
        cases h
        obtain ⟨c, hc, hfc⟩ := ih hrest
        exact ⟨c, by simp [hc], hfc⟩
      | ok bs =>
        rw [hrest] at h
        cases h

/-- Steps that all succeed do so one after another. -/
theorem foldlM_ok {σ : Type} {f : σ → α → Except ε σ} {l : List α} {s : σ}
    (h : ∀ a ∈ l, ∀ s, ∃ s', f s a = .ok s') : ∃ s', l.foldlM f s = .ok s' := by
  induction l generalizing s with
  | nil => exact ⟨s, rfl⟩
  | cons a l ih =>
    obtain ⟨s₁, hs₁⟩ := h a (by simp) s
    obtain ⟨s', hs'⟩ := ih (s := s₁) fun a' ha' => h a' (by simp [ha'])
    exact ⟨s', by rw [List.foldlM_cons, hs₁]; exact hs'⟩

theorem foldlM_congr {σ : Type} {f g : σ → α → Except ε σ} {l : List α} {s : σ}
    (h : ∀ a ∈ l, ∀ s, f s a = g s a) : l.foldlM f s = l.foldlM g s := by
  induction l generalizing s with
  | nil => rfl
  | cons a l ih =>
    rw [List.foldlM_cons, List.foldlM_cons, h a (by simp)]
    exact congrArg _ (funext fun s' => ih fun a' ha' => h a' (by simp [ha']))

/-- Steps that each go on from a state, and thereby serve an item, do so together. -/
theorem foldlM_rel {σ : Type} {f : σ → α → Except ε σ} {R : σ → σ → Prop} {P : α → σ → Prop}
    (hrefl : ∀ s, R s s) (htrans : ∀ {s s' s''}, R s s' → R s' s'' → R s s'')
    (hmono : ∀ {a s s'}, R s s' → P a s → P a s') {l : List α} {s s' : σ}
    (hf : ∀ a ∈ l, ∀ s s', f s a = .ok s' → R s s' ∧ P a s') (h : l.foldlM f s = .ok s') :
    R s s' ∧ ∀ a ∈ l, P a s' := by
  induction l generalizing s with
  | nil =>
    cases h
    exact ⟨hrefl _, by simp⟩
  | cons a l ih =>
    rw [List.foldlM_cons] at h
    obtain ⟨s₁, hs₁, hrest⟩ := bind_eq_ok.1 h
    obtain ⟨hstep, hserved⟩ := hf a (by simp) s s₁ hs₁
    obtain ⟨hsteps, hothers⟩ := ih (fun a' ha' => hf a' (by simp [ha'])) hrest
    exact ⟨htrans hstep hsteps, List.forall_mem_cons.2 ⟨hmono hsteps hserved, hothers⟩⟩

end OpFusion.Outcome
