/-
  Slots of a well-formed graph: each variable has a slot of its own.

  Inputs and outputs have the slots of their positions (`slot_input`, `slot_output`), all other results
  have temporary slots (`slot_temp`), and no two variables share one (`slot_inj`).
-/
import OpFusion.Proofs.Graph.Building

namespace OpFusion.Graph

variable {g : Graph} {v w : Nat}

/-- A variable that is an input or a result. -/
def Defined (g : Graph) (v : Nat) : Prop := v ∈ g.inputs ∨ v ∈ g.produced

/-- The slots that a call of the graph's module has. -/
def HasSlot (g : Graph) : Slot → Prop
  | .input index => index < g.inputs.length
  | .output index => index < g.outputs.length
  | .temp index => index < g.tempCount

theorem slot_output (h : v ∈ g.outputs) : g.slot v = .output (g.outputs.idxOf v) := by
  simp [slot, h]

namespace WellFormed

theorem not_output (hg : g.WellFormed) (h : v ∈ g.inputs) : v ∉ g.outputs :=
  fun ho => hg.disjoint v h (hg.outputs_produced v ho)

theorem slot_input (hg : g.WellFormed) (h : v ∈ g.inputs) : g.slot v = .input (g.inputs.idxOf v) := by
  simp [slot, h, hg.not_output h]

/-- A result that is no output of the graph is a temporary, and has the slot of its position there. -/
theorem slot_temp (hg : g.WellFormed) (h : v ∈ g.produced) (ho : v ∉ g.outputs) :
    v ∈ g.temporaries ∧ g.slot v = .temp (g.temporaries.idxOf v) := by
  have hi : v ∉ g.inputs := fun hi => hg.disjoint v hi h
  exact ⟨by simp [temporaries, h, ho, hi], by simp [slot, ho, hi]⟩

/-- No result is in the slot of an input. -/
theorem slot_ne_input (hg : g.WellFormed) (h : v ∈ g.produced) (index : Nat) :
    g.slot v ≠ .input index := by
  by_cases ho : v ∈ g.outputs
  · simp [slot_output ho]
  · simp [(hg.slot_temp h ho).2]

/-- **No two variables share a slot.** -/
theorem slot_inj (hg : g.WellFormed) (hv : g.Defined v) (hw : g.Defined w)
    (h : g.slot v = g.slot w) : v = w := by
  have hidx : ∀ {l : List Nat}, v ∈ l → w ∈ l → l.idxOf v = l.idxOf w → v = w := by
    intro l hv hw he
    have hlv := List.getElem_idxOf (List.idxOf_lt_length_of_mem hv)
    have hlw := List.getElem_idxOf (List.idxOf_lt_length_of_mem hw)
    rw [← hlv, ← hlw]
    simp only [he]
  rcases hv with hv | hv
  · rcases hw with hw | hw
    · rw [hg.slot_input hv, hg.slot_input hw, Slot.input.injEq] at h
      exact hidx hv hw h
    · exact absurd (h.symm.trans (hg.slot_input hv)) (hg.slot_ne_input hw _)
  · rcases hw with hw | hw
    · exact absurd (h.trans (hg.slot_input hw)) (hg.slot_ne_input hv _)
    · by_cases hvo : v ∈ g.outputs <;> by_cases hwo : w ∈ g.outputs
      · rw [slot_output hvo, slot_output hwo, Slot.output.injEq] at h
        exact hidx hvo hwo h
      · rw [slot_output hvo, (hg.slot_temp hw hwo).2] at h
        cases h
      · rw [(hg.slot_temp hv hvo).2, slot_output hwo] at h
        cases h
      · rw [(hg.slot_temp hv hvo).2, (hg.slot_temp hw hwo).2, Slot.temp.injEq] at h
        exact hidx (hg.slot_temp hv hvo).1 (hg.slot_temp hw hwo).1 h

/-- The slot of a variable exists. -/
theorem hasSlot (hg : g.WellFormed) (hv : g.Defined v) : g.HasSlot (g.slot v) := by
  rcases hv with hv | hv
  · rw [hg.slot_input hv]
    exact List.idxOf_lt_length_of_mem hv
  · by_cases ho : v ∈ g.outputs
    · rw [slot_output ho]
      exact List.idxOf_lt_length_of_mem ho
    · obtain ⟨ht, hslot⟩ := hg.slot_temp hv ho
      rw [hslot]
      exact List.idxOf_lt_length_of_mem ht

end WellFormed

end OpFusion.Graph
