/-
  The buffers that a call works with.

  A buffer is found under its address, a number. Addresses are given out one after another and never
  again, so that an address of a released buffer stays empty.
-/
import OpFusion.Buffer

namespace OpFusion

/-- Buffers under addresses; a released one leaves an empty cell. -/
structure Heap where
  cells : List (Option Buffer) := []
  deriving DecidableEq

namespace Heap

/-- The live buffer at an address. -/
def get? (h : Heap) (address : Nat) : Option Buffer := (h.cells[address]?).join

/-- The heap with one more buffer, and its address. -/
def allocate (h : Heap) (b : Buffer) : Nat × Heap := (h.cells.length, ⟨h.cells ++ [some b]⟩)

/-- The heap with another buffer at the address of a live one. -/
def set? (h : Heap) (address : Nat) (b : Buffer) : Option Heap :=
  (h.get? address).map fun _ => ⟨h.cells.set address (some b)⟩

/-- The heap without a live buffer. -/
def release? (h : Heap) (address : Nat) : Option Heap :=
  (h.get? address).map fun _ => ⟨h.cells.set address none⟩

/-- The addresses of the live buffers. -/
def live (h : Heap) : List Nat :=
  (List.range h.cells.length).filter fun address => (h.get? address).isSome

theorem get?_allocate (h : Heap) (b : Buffer) (address : Nat) :
    (h.allocate b).2.get? address =
      if address = h.cells.length then some b else h.get? address := by
  simp only [allocate, get?]
  by_cases hl : address = h.cells.length
  · simp [hl]
  · rw [List.getElem?_append]
    by_cases hlt : address < h.cells.length
    · simp [hl, hlt]
    · have hone : [some b].length ≤ address - h.cells.length := by simp; omega
      simp [hl, hlt, List.getElem?_eq_none hone]

theorem get?_release {h h' : Heap} {released : Nat} (hr : h.release? released = some h')
    (address : Nat) : h'.get? address = if address = released then none else h.get? address := by
  obtain ⟨b, hb, rfl⟩ := Option.map_eq_some_iff.1 hr
  have hlt : released < h.cells.length := by
    by_cases hlt : released < h.cells.length
    · exact hlt
    · simp [get?, List.getElem?_eq_none (Nat.le_of_not_lt hlt)] at hb
  by_cases ha : address = released
  · simp [get?, ha, hlt]
  · simp [get?, ha, List.getElem?_set_ne (Ne.symm ha)]

end Heap

end OpFusion
