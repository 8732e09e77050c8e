/-
  One application of a library kind, from the values of its operands to those of its results.

  `Holds g env made f`: in the frame `f` the slots of the inputs and of the results `made` hold the values
  that `env` gives them. An application that runs in such a frame puts the value that the reference
  gives to its result in place, or leaves with the failure of the reference (`runPlan_next`,
  `runPlan_leave`).
-/
import OpFusion.Proofs.Exec.Frame
import OpFusion.Proofs.Exec.Kernel
import OpFusion.Proofs.Graph.Slots
import OpFusion.Proofs.Module.Plans

namespace OpFusion

/-! ## What library kinds accept -/

namespace Context

variable {c : Context}

theorem expectArity_eq_ok {inputs outputs : Nat} :
    c.expectArity inputs outputs = .ok () ↔ c.inputs.length = inputs ∧ c.outputs.length = outputs := by
  unfold expectArity
  split
  · next h => simp [h]
  · next h => simp [h]

theorem expectDType_eq_ok {d : DType} :
    c.expectDType d = .ok () ↔ ∀ desc ∈ c.inputs ++ c.outputs, desc.dtype = d := by
  unfold expectDType
  split
  · next h => simpa using List.find?_eq_none.1 h
  · next desc h =>
    have hne : desc.dtype ≠ d := by simpa using List.find?_some h
    refine iff_of_false (by simp) fun hall => hne (hall desc (List.mem_of_find?_eq_some h))

end Context

theorem Library.require_eq_ok {condition : Bool} {reason : String} :
    Library.require condition reason = .ok () ↔ condition = true := by
  unfold Library.require
  split <;> simp_all

namespace Kernel

variable {k : Kernel} {c : Context}

/-- What the kind of a kernel checks of an application. -/
structure Checked (k : Kernel) (c : Context) : Prop where
  inputs : c.inputs.length = k.arity
  outputs : c.outputs.length = 1
  dtype : ∀ desc ∈ c.inputs ++ c.outputs, desc.dtype = k.dtype
  scalar : ∀ d, k = .scale d → c.inputRank 1 = 0

theorem checked (h : k.kind.check c = .ok ()) : k.Checked c := by
  cases k with
  | scale d =>
    obtain ⟨_, harity, h⟩ := Outcome.bind_eq_ok.1 h
    obtain ⟨_, hdtype, h⟩ := Outcome.bind_eq_ok.1 h
    obtain ⟨_, hscalar, -⟩ := Outcome.bind_eq_ok.1 h
    obtain ⟨hin, hout⟩ := Context.expectArity_eq_ok.1 harity
    exact ⟨hin, hout, Context.expectDType_eq_ok.1 hdtype, fun _ _ => by
      simpa using Library.require_eq_ok.1 hscalar⟩
  | reduceSum d =>
    obtain ⟨_, harity, h⟩ := Outcome.bind_eq_ok.1 h
    obtain ⟨_, hdtype, -⟩ := Outcome.bind_eq_ok.1 h
    obtain ⟨hin, hout⟩ := Context.expectArity_eq_ok.1 harity
    exact ⟨hin, hout, Context.expectDType_eq_ok.1 hdtype, by simp⟩
  | binary op d =>
    obtain ⟨_, harity, h⟩ := Outcome.bind_eq_ok.1 h
    obtain ⟨_, hdtype, -⟩ := Outcome.bind_eq_ok.1 h
    obtain ⟨hin, hout⟩ := Context.expectArity_eq_ok.1 harity
    exact ⟨hin, hout, Context.expectDType_eq_ok.1 hdtype, by simp⟩
  | unary op d =>
    obtain ⟨_, harity, h⟩ := Outcome.bind_eq_ok.1 h
    obtain ⟨_, -, h⟩ := Outcome.bind_eq_ok.1 h
    obtain ⟨_, hdtype, -⟩ := Outcome.bind_eq_ok.1 h
    obtain ⟨hin, hout⟩ := Context.expectArity_eq_ok.1 harity
    exact ⟨hin, hout, Context.expectDType_eq_ok.1 hdtype, by simp⟩

/-- The expressions for the extents of the result. -/
def resultExtents (c : Context) : Kernel → List Extent
  | reduceSum _ => []
  | _ => Extent.like 0 (c.inputRank 0)

theorem extents_eq (h : k.Checked c) (index : Nat) :
    k.kind.extents c index = .ok (k.resultExtents c) := by
  have hpos : 0 < c.inputs.length := h.inputs ▸ k.arity_pos
  obtain ⟨desc, descs, hinputs⟩ := List.exists_cons_of_length_pos hpos
  cases k <;> simp [kind, Library.scale, Library.reduceSum, Library.binary, Library.unary,
    Library.extentsOfFirst, resultExtents, Context.inputRank, hinputs]

theorem body_eq (k : Kernel) (c : Context) : k.kind.body c = .ok (.kernel k) := by cases k <;> rfl

theorem length_resultExtents {operand : Nat → Tensor} (k : Kernel)
    (hrank : c.inputRank 0 = (operand 0).dims.length) :
    (k.resultExtents c).length = (k.resultDims operand).length := by
  cases k <;> simp [resultExtents, resultDims, Extent.like, hrank]

/-- There is a buffer of the shape of the result, since there is one of the first operand's. -/
theorem sound_resultDims {operand : Nat → Tensor} {b : Buffer} (k : Kernel) (hb : b.WellFormed)
    (ht : b.tensor = operand 0) (hd : (operand 0).dtype = k.dtype) :
    Buffer.Sound k.dtype (k.resultDims operand) := by
  have hfirst : Buffer.Sound k.dtype (operand 0).dims := by
    rw [← hd, ← ht]
    exact hb.sound
  cases k with
  | reduceSum d => exact .scalar d
  | scale d => exact hfirst
  | binary op d => exact hfirst
  | unary op d => exact hfirst

/-- The extents of the result, in a frame whose first operand is at hand. -/
theorem mapM_resultExtents {f : Frame} {operand : Nat → Tensor} {b : Buffer}
    (hb : f.operand? 0 = some b) (ht : b.tensor = operand 0)
    (hrank : c.inputRank 0 = (operand 0).dims.length) :
    (k.resultExtents c).mapM f.extent? = some ((k.resultDims operand).map Int64.ofNat) := by
  have hdims : b.dims = (operand 0).dims := congrArg Tensor.dims ht
  have hlike : (Extent.like 0 (c.inputRank 0)).mapM f.extent? =
      some ((operand 0).dims.map Int64.ofNat) := by
    rw [hrank, ← hdims]
    have heach : ∀ e ∈ Extent.like 0 b.dims.length, f.extent? e =
        some (match e with
          | .ofInput _ axis => Int64.ofNat (b.dims.getD axis 0)
          | _ => 0) := by
      intro e he
      obtain ⟨axis, haxis, rfl⟩ := List.mem_map.1 he
      have hlt := List.mem_range.1 haxis
      simp [Frame.extent?, hb, hlt]
    rw [Outcome.mapM_eq_some_map heach, Extent.like, List.map_map]
    congr 1
    refine List.ext_getElem (by simp) fun i hi hi' => ?_
    have hlt : i < b.dims.length := by simpa using hi
    simp [hlt]
  cases k with
  | reduceSum d => rfl
  | scale d => exact hlike
  | binary op d => exact hlike
  | unary op d => exact hlike

end Kernel

/-! ## Kernels in a frame -/

/-- Values that are written densely to a row-major buffer are the array that it holds. -/
theorem Buffer.tensor_overwritten {b : Buffer} (hb : b.WellFormed) (hrow : b.isRowMajor = true)
    {d : DType} {dims : List Nat} (hd : b.dtype = d) (hdims : b.dims = dims) {xs : List d.Elem}
    (hlen : xs.length = dims.prod) :
    (b.overwritten (xs.flatMap (Element.toBytes d))).tensor = ⟨d, dims, xs⟩ := by
  subst hd hdims
  have helems := elements_overwritten hb hrow (hlen.trans (length_eq b).symm)
  exact congrArg (Tensor.mk b.dtype b.dims) helems

namespace Frame

/-- A kernel may run: its operands are at hand, and its result is in place in the slot `s`. -/
structure Poised (f : Frame) (k : Kernel) (operand : Nat → Tensor) (s : Slot) : Prop where
  separate : f.Separate
  slot : ∀ i, s ≠ .input i
  accepts : k.Accepts operand
  operands : ∀ i < k.arity, ∃ b, f.operand? i = some b ∧ b.WellFormed ∧ b.tensor = operand i
  result : ∃ address, Ready f s k.dtype (k.resultDims operand) address ∧ f.results = [address]

variable {f : Frame} {k : Kernel} {operand : Nat → Tensor} {s : Slot}

/-- What a kernel writes lands in its result. -/
theorem Poised.written (h : f.Poised k operand s) {w : Kernel.Written k.dtype}
    (hw : k.Right operand w) :
    ∃ f' b, f.write 0 0 (w.elements.flatMap (Element.toBytes k.dtype)) = .next f' ∧ f'.Separate ∧
      Keeps s f f' ∧ f'.buffer? s = some b ∧
      (w.failure = none → b.isRowMajor = true ∧
        b.tensor = ⟨k.dtype, k.resultDims operand, w.elements⟩) := by
  obtain ⟨address, hready, hresults⟩ := h.result
  have hroom : (w.elements.flatMap (Element.toBytes k.dtype)).length ≤
      (k.resultDims operand).prod * k.dtype.size := by
    rw [Buffer.length_flatMap_toBytes]
    exact Nat.mul_le_mul_right _ hw.room
  obtain ⟨f', b, hwrite, hf', hkeeps, hb, hbuffer⟩ := write_next h.separate h.slot hready hresults hroom
  refine ⟨f', _, hwrite, hf', hkeeps, hbuffer, fun hnone => ?_⟩
  obtain ⟨b', hb', hdtype, hdims, hrow⟩ := hready.buffer
  obtain rfl : b = b' := Option.some.inj (hb.symm.trans hb')
  obtain ⟨b', hb', hwell⟩ := h.separate.live s address hready.slot
  obtain rfl : b = b' := Option.some.inj (hb.symm.trans hb')
  exact ⟨hrow, Buffer.tensor_overwritten hwell hrow hdtype hdims (hw.full hnone)⟩

/-- A kernel whose reference succeeds goes on, with the tensor in its slot. -/
theorem Poised.run_next (h : f.Poised k operand s) {t : Tensor} (ht : k.evaluate operand = .ok t)
    (c : Context) :
    ∃ f' b, k.run c f = .next f' ∧ f'.Separate ∧ Keeps s f f' ∧ f'.buffer? s = some b ∧
      b.isRowMajor = true ∧ b.tensor = t := by
  obtain ⟨w, hcompute, hw⟩ := Kernel.compute_eq h.accepts h.operands
  obtain ⟨f', b, hwrite, hf', hkeeps, hbuffer, hfull⟩ := h.written hw
  have houtcome := hw.outcome.symm.trans ht
  cases hfailure : w.failure with
  | some message => simp [hfailure] at houtcome
  | none =>
    obtain ⟨hrow, htensor⟩ := hfull hfailure
    refine ⟨f', b, ?_, hf', hkeeps, hbuffer, hrow, htensor.trans ?_⟩
    · simp [Kernel.run, hcompute, Flow.given, hwrite, Flow.andThen, hfailure]
    · simpa [hfailure] using houtcome

/-- A kernel whose reference fails leaves with the same failure. -/
theorem Poised.run_leave (h : f.Poised k operand s) {message : String}
    (ht : k.evaluate operand = .error message) (hf : f.failure = none) (c : Context) :
    ∃ f', k.run c f = .leave f' ∧ f'.Separate ∧ f'.outputs.length = f.outputs.length ∧
      f'.failure = some (Source.cText (c.failure message)) := by
  obtain ⟨w, hcompute, hw⟩ := Kernel.compute_eq h.accepts h.operands
  obtain ⟨f₁, b, hwrite, hf₁, hkeeps, -, -⟩ := h.written hw
  have houtcome := hw.outcome.symm.trans ht
  cases hfailure : w.failure with
  | none => simp [hfailure] at houtcome
  | some message' =>
    obtain rfl : message' = message := by simpa [hfailure] using houtcome
    let f' : Frame := { f₁.record (Source.cText (c.failure message')) with status := 1 }
    have hslots : ∀ t, f'.slot? t = f₁.slot? t := fun t => by cases t <;> rfl
    refine ⟨f', ?_, hf₁.of_eq rfl hslots, hkeeps.outputs, ?_⟩
    · simp [Kernel.run, hcompute, Flow.given, hwrite, Flow.andThen, hfailure, fail, f']
    · simp [f', record, hkeeps.failure.trans hf]

end Frame

/-! ## Applications in a frame -/

/-- The slots of the inputs and of the results `made` hold the values that `env` gives them. -/
structure Holds (g : Graph) (env : Nat → Tensor) (made : List Nat) (f : Frame) : Prop where
  separate : f.Separate
  slots : ∀ s, g.HasSlot s → ∃ x, f.slot? s = some x
  outputs : f.outputs.length = g.outputs.length
  values : ∀ v, v ∈ g.inputs ∨ v ∈ made → ∃ b, f.buffer? (g.slot v) = some b ∧ b.tensor = env v
  described : ∀ v, v ∈ g.inputs ∨ v ∈ made → (env v).desc = (g.binding v).desc
  rowMajor : ∀ v ∈ made, ∀ b, f.buffer? (g.slot v) = some b → b.isRowMajor = true
  failure : f.failure = none
  status : f.status = 0

/-- An application that comes next: it reads what is there and makes results that are not. -/
structure Graph.Next (g : Graph) (made : List Nat) (a : Application) : Prop where
  reads : ∀ v ∈ a.inputs, v ∈ g.inputs ∨ v ∈ made
  makes : ∀ v ∈ a.outputs, v ∈ g.produced ∧ v ∉ made
  made : ∀ v ∈ made, v ∈ g.produced

/-- What an application makes is in slots other than those of what is there. -/
theorem Graph.Next.slot_ne {g : Graph} {made : List Nat} {a : Application} (hnext : g.Next made a)
    (hg : g.WellFormed) {v w : Nat} (hv : v ∈ a.outputs) (hw : w ∈ g.inputs ∨ w ∈ made) :
    g.slot w ≠ g.slot v := by
  obtain ⟨hproduced, hfresh⟩ := hnext.makes v hv
  intro heq
  obtain rfl := hg.slot_inj (hw.imp_right (hnext.made w)) (Or.inr hproduced) heq
  rcases hw with hin | hmade
  · exact hg.disjoint w hin hproduced
  · exact hfresh hmade

namespace Holds

variable {g : Graph} {env : Nat → Tensor} {made : List Nat} {f f' : Frame}

/-- The values of operands do not depend on which application runs. -/
theorem enter (h : Holds g env made f) (operands : List (Option Nat)) :
    Holds g env made { f with operands, results := [] } := by
  have hslots : ∀ s, { f with operands, results := [] }.slot? s = f.slot? s :=
    fun s => by cases s <;> rfl
  have hbuffers : ∀ s, { f with operands, results := [] }.buffer? s = f.buffer? s := fun s => by
    rw [Frame.buffer?, hslots]
    rfl
  exact ⟨h.separate.of_eq rfl hslots, fun s hs => hslots s ▸ h.slots s hs, h.outputs,
    fun v hv => hbuffers (g.slot v) ▸ h.values v hv, h.described,
    fun v hv => hbuffers (g.slot v) ▸ h.rowMajor v hv, h.failure, h.status⟩

/-- The address and the buffer of a variable. -/
theorem exists_address (h : Holds g env made f) {v : Nat} (hv : v ∈ g.inputs ∨ v ∈ made) :
    ∃ address b, f.slot? (g.slot v) = some (some address) ∧ f.heap.get? address = some b ∧
      b.WellFormed ∧ b.tensor = env v := by
  obtain ⟨b, hb, ht⟩ := h.values v hv
  obtain ⟨address, hslot, hget, hw⟩ := h.separate.exists_address hb
  exact ⟨address, b, hslot, hget, hw, ht⟩

/-- What holds after the slot of a result has got its value. -/
theorem made_one (h : Holds g env made f) (hg : g.WellFormed) {v : Nat}
    (hnew : v ∈ g.produced) (hmade : ∀ w ∈ made, w ∈ g.produced) (hv : v ∉ made)
    (hkeeps : Frame.Keeps (g.slot v) f f') (hf' : f'.Separate) {b : Buffer} {t : Tensor}
    (hb : f'.buffer? (g.slot v) = some b) (hrow : b.isRowMajor = true) (ht : b.tensor = t)
    (hdesc : t.desc = (g.binding v).desc) :
    Holds g (fun w => if w ∈ [v] then t else env w) (made ++ [v]) f' := by
  have hother : ∀ w, w ∈ g.inputs ∨ w ∈ made → w ≠ v ∧ g.slot w ≠ g.slot v := by
    intro w hw
    have hdef : g.Defined w := hw.imp id (hmade w)
    have hne : w ≠ v := by
      rintro rfl
      rcases hw with hw | hw
      · exact hg.disjoint w hw hnew
      · exact hv hw
    exact ⟨hne, fun he => hne (hg.slot_inj hdef (Or.inr hnew) he)⟩
  refine ⟨hf', fun s hs => ?_, hkeeps.outputs.trans h.outputs, fun w hw => ?_, fun w hw => ?_,
    fun w hw => ?_, hkeeps.failure.trans h.failure, hkeeps.status.trans h.status⟩
  · by_cases hsv : s = g.slot v
    · unfold Frame.buffer? at hb
      match hslot : f'.slot? (g.slot v) with
      | none => simp [hslot] at hb
      | some x => exact ⟨x, hsv ▸ hslot⟩
    · rw [hkeeps.slots s hsv]
      exact h.slots s hs
  · by_cases hwv : w = v
    · subst hwv
      exact ⟨b, hb, by simpa using ht⟩
    · have hold : w ∈ g.inputs ∨ w ∈ made := by simpa [hwv] using hw
      rw [hkeeps.buffer? (hother w hold).2]
      simpa [hwv] using h.values w hold
  · by_cases hwv : w = v
    · subst hwv
      simpa using hdesc
    · simpa [hwv] using h.described w (by simpa [hwv] using hw)
  · intro b' hb'
    by_cases hwv : w = v
    · subst hwv
      obtain rfl : b = b' := Option.some.inj (hb.symm.trans hb')
      exact hrow
    · have hold : w ∈ made := by simpa [hwv] using hw
      rw [hkeeps.buffer? (hother w (Or.inr hold)).2] at hb'
      exact h.rowMajor w hold b' hb'

end Holds

/-- The shape of what a kernel makes. -/
theorem Kernel.evaluate_shape {k : Kernel} {operand : Nat → Tensor} {t : Tensor}
    (h : k.evaluate operand = .ok t) : t.dtype = k.dtype ∧ t.dims = k.resultDims operand := by
  cases k with
  | scale d => cases h; exact ⟨rfl, rfl⟩
  | reduceSum d => cases h; exact ⟨rfl, rfl⟩
  | binary op d =>
    rw [evaluate] at h
    split at h
    · obtain ⟨zs, -, rfl⟩ := Outcome.map_eq_ok.1 h
      exact ⟨rfl, rfl⟩
    · cases h
  | unary op d => cases h; exact ⟨rfl, rfl⟩

section

open Assembly (Places)

variable {g : Graph} {env operand : Nat → Tensor} {made : List Nat} {f f' : Frame} {position : Nat}
  {a : Application} {k : Kernel} {plan : Plan}

/-- The plan of an application of a library kind: the kernel, and one output. -/
theorem Assembly.Places.kernel (hplan : Places g position a plan) (hk : a.kind = k.kind) :
    k.Checked plan.context ∧ plan.body = .kernel k ∧
      ∃ v, a.outputs = [v] ∧ (g.binding v).desc.rank = (k.resultExtents plan.context).length ∧
        plan.outputs = [⟨g.slot v, (g.binding v).desc, k.resultExtents plan.context⟩] := by
  have hchecked : k.Checked plan.context := Kernel.checked (hk ▸ hplan.accepted)
  have hbody : plan.body = .kernel k := by
    have hbody := hplan.body
    rw [hk, Kernel.body_eq] at hbody
    exact (Except.ok.inj hbody).symm
  refine ⟨hchecked, hbody, ?_⟩
  have hone : a.outputs.length = 1 := by
    have hlength := hchecked.outputs
    rw [hplan.context] at hlength
    simpa [Assembly.context, Graph.bindings] using hlength
  obtain ⟨v, hv⟩ := List.length_eq_one_iff.1 hone
  have houtputs := hplan.outputs
  rw [hv] at houtputs
  obtain ⟨o, ho, hrest⟩ := Outcome.bind_eq_ok.1 houtputs
  obtain ⟨extents, hextents, hlength, rfl⟩ := Assembly.planOutput_eq_ok ho
  rw [hk, Kernel.extents_eq hchecked] at hextents
  cases hextents
  exact ⟨v, hv, hlength.symm, (Except.ok.inj hrest).symm⟩

/-- The operands of an application are the buffers in the slots of what it reads, and hold the given
values. -/
def Fed (g : Graph) (a : Application) (operand : Nat → Tensor) (f : Frame) : Prop :=
  ∀ i v : Nat, a.inputs[i]? = some v → ∃ address b, f.operands[i]? = some (some address) ∧
    f.slot? (g.slot v) = some (some address) ∧ f.heap.get? address = some b ∧ b.WellFormed ∧
    b.tensor = operand i ∧ (operand i).desc = (g.binding v).desc

/-- The operands of an application are taken. -/
theorem exists_fed (hf : f.Separate) (hread : ∀ i v : Nat, a.inputs[i]? = some v →
      ∃ b, f.buffer? (g.slot v) = some b ∧ b.tensor = operand i ∧
        (operand i).desc = (g.binding v).desc) :
    ∃ operands, (a.inputs.map g.slot).mapM f.slot? = some operands ∧
      Fed g a operand { f with operands, results := [] } := by
  have haddress : ∀ {i v : Nat}, a.inputs[i]? = some v → ∃ address b,
      f.slot? (g.slot v) = some (some address) ∧ f.heap.get? address = some b ∧ b.WellFormed ∧
        b.tensor = operand i ∧ (operand i).desc = (g.binding v).desc := by
    intro i v hv
    obtain ⟨b, hb, ht⟩ := hread i v hv
    obtain ⟨address, hslot, hget, hw⟩ := hf.exists_address hb
    exact ⟨address, b, hslot, hget, hw, ht⟩
  have heach : ∀ s ∈ a.inputs.map g.slot, f.slot? s = some (f.slot? s).join := by
    intro s hs
    obtain ⟨v, hv, rfl⟩ := List.mem_map.1 hs
    obtain ⟨i, hi⟩ := List.mem_iff_getElem?.1 hv
    obtain ⟨address, b, hslot, -⟩ := haddress hi
    simp [hslot]
  refine ⟨_, Outcome.mapM_eq_some_map heach, fun i v hv => ?_⟩
  obtain ⟨address, b, hslot, hrest⟩ := haddress hv
  refine ⟨address, b, by simp [hv, hslot], ?_, hrest⟩
  cases hs : g.slot v <;> simpa [hs, Frame.slot?] using hslot

namespace Fed

/-- Operands are found by their addresses, also after another slot has changed. -/
theorem keeps (h : Fed g a operand f) {s : Slot} (hkeeps : Frame.Keeps s f f')
    (hs : ∀ v ∈ a.inputs, g.slot v ≠ s) : Fed g a operand f' := by
  intro i v hv
  obtain ⟨address, b, hoperand, hslot, hget, hrest⟩ := h i v hv
  have hne := hs v (List.mem_of_getElem? hv)
  exact ⟨address, b, hkeeps.operands ▸ hoperand, (hkeeps.slots _ hne).trans hslot,
    (hkeeps.buffers _ hne address hslot).trans hget, hrest⟩

theorem operand? (h : Fed g a operand f) {i : Nat} (hi : i < a.inputs.length) :
    ∃ b, f.operand? i = some b ∧ b.WellFormed ∧ b.tensor = operand i := by
  obtain ⟨address, b, hoperand, -, hget, hw, ht, -⟩ := h i _ (List.getElem?_eq_getElem hi)
  exact ⟨b, by simp [Frame.operand?, hoperand, hget], hw, ht⟩

/-- The types and ranks of operands are those that the kind has seen. -/
theorem desc (h : Fed g a operand f) (position : Nat) {i : Nat} (hi : i < a.inputs.length) :
    (Assembly.context g position a).inputs[i]? = some (operand i).desc := by
  obtain ⟨-, -, -, -, -, -, -, hdesc⟩ := h i _ (List.getElem?_eq_getElem hi)
  simp [Assembly.context, Graph.bindings, hi, hdesc]

/-- The operands of an application that its kind accepts. -/
theorem accepts (h : Fed g a operand f) (hchecked : k.Checked (Assembly.context g position a)) :
    a.inputs.length = k.arity ∧ k.Accepts operand ∧
      (Assembly.context g position a).inputRank 0 = (operand 0).dims.length := by
  have harity : a.inputs.length = k.arity := by
    simpa [Assembly.context, Graph.bindings] using hchecked.inputs
  refine ⟨harity, ⟨fun i hi => ?_, fun d hd => ?_⟩, ?_⟩
  · have hmem := List.mem_of_getElem? (h.desc position (harity ▸ hi))
    exact hchecked.dtype _ (List.mem_append_left _ hmem)
  · have hrank := hchecked.scalar d hd
    have hlt : 1 < a.inputs.length := harity ▸ hd ▸ Nat.lt_succ_self 1
    rw [Context.inputRank, h.desc position hlt] at hrank
    exact List.eq_nil_of_length_eq_zero hrank
  · rw [Context.inputRank, h.desc position (harity ▸ k.arity_pos)]
    rfl

/-- The output of an application of a library kind is put in place. -/
theorem poised (h : Fed g a operand f) (hf : f.Separate) (hg : g.WellFormed) (hnext : g.Next made a)
    (hplan : Places g position a plan) (hk : a.kind = k.kind)
    (hslots : ∀ s, g.HasSlot s → ∃ x, f.slot? s = some x) (hresults : f.results = []) :
    ∃ f' v, a.outputs = [v] ∧ (g.binding v).desc = ⟨k.dtype, (k.resultDims operand).length⟩ ∧
      (Frame.prepareAll plan.context 0 plan.outputs f).andThen (Frame.runBody plan.context plan.body) =
        k.run plan.context f' ∧
      f'.Poised k operand (g.slot v) ∧ Frame.Keeps (g.slot v) f f' := by
  obtain ⟨hchecked, hbody, v, hv, hrank, houtputs⟩ := hplan.kernel hk
  rw [hplan.context] at hchecked
  obtain ⟨harity, haccepts, hfirst⟩ := h.accepts hchecked
  have hmem : v ∈ a.outputs := by simp [hv]
  have hproduced := (hnext.makes v hmem).1
  -- the output is in another slot than the operands
  have hother : ∀ w ∈ a.inputs, g.slot w ≠ g.slot v := fun w hw =>
    hnext.slot_ne hg hmem (hnext.reads w hw)
  obtain ⟨b, hb, hbw, hbt⟩ := h.operand? (harity ▸ k.arity_pos)
  obtain ⟨x, hx⟩ := hslots (g.slot v) (hg.hasSlot (Or.inr hproduced))
  have hdtype : (g.binding v).desc.dtype = k.dtype := by
    refine hchecked.dtype _ (List.mem_append_right _ ?_)
    simp [Assembly.context, Graph.bindings, hv]
  have hsound := k.sound_resultDims hbw hbt (haccepts.dtype 0 k.arity_pos)
  rw [← hplan.context] at hfirst
  have hrank' := hrank.trans (k.length_resultExtents hfirst)
  obtain ⟨f', address, hprepare, hf', hkeeps, hready, hresult⟩ := Frame.prepare_next
    (o := ⟨g.slot v, (g.binding v).desc, k.resultExtents plan.context⟩) hf
    (hg.slot_ne_input hproduced) hx (hdtype ▸ hsound) hrank'
    (Kernel.mapM_resultExtents hb hbt hfirst) plan.context 0
  rw [hresults] at hresult
  refine ⟨f', v, hv, by rw [← hdtype, ← hrank'], ?_, ⟨hf', hg.slot_ne_input hproduced, haccepts,
    fun i hi => (h.keeps hkeeps hother).operand? (harity ▸ hi), address, hdtype ▸ hready, hresult⟩, hkeeps⟩
  rw [houtputs, Frame.prepareAll, hprepare, hbody]
  rfl

end Fed

/-- The operands of an application are taken and its output is put in place. -/
theorem Holds.poised (h : Holds g env made f) (hg : g.WellFormed) (hnext : g.Next made a)
    (hplan : Places g position a plan) (hk : a.kind = k.kind) :
    ∃ operands f' v, a.outputs = [v] ∧
      (g.binding v).desc = ⟨k.dtype, (k.resultDims (Reference.operands env a)).length⟩ ∧
      Frame.runPlan plan f = k.run plan.context f' ∧
      f'.Poised k (Reference.operands env a) (g.slot v) ∧
      Frame.Keeps (g.slot v) { f with operands, results := [] } f' := by
  have hread : ∀ i v : Nat, a.inputs[i]? = some v → ∃ b, f.buffer? (g.slot v) = some b ∧
      b.tensor = Reference.operands env a i ∧
      (Reference.operands env a i).desc = (g.binding v).desc := by
    intro i v hv
    have hdef := hnext.reads v (List.mem_of_getElem? hv)
    have hvalue : Reference.operands env a i = env v := by simp [Reference.operands, hv]
    rw [hvalue]
    obtain ⟨b, hb, ht⟩ := h.values v hdef
    exact ⟨b, hb, ht, h.described v hdef⟩
  obtain ⟨operands, htaken, hfed⟩ := exists_fed h.separate hread
  have h₀ := h.enter operands
  obtain ⟨f', v, hv, hdesc, hrun, hpoised, hkeeps⟩ :=
    hfed.poised h₀.separate hg hnext hplan hk h₀.slots rfl
  refine ⟨operands, f', v, hv, hdesc, ?_, hpoised, hkeeps⟩
  rw [Frame.runPlan, hplan.inputs, htaken, Flow.given, hrun]

/-- **An application whose reference succeeds** puts the value of its result in place. -/
theorem Holds.runPlan_next (h : Holds g env made f) (hg : g.WellFormed) (hnext : g.Next made a)
    (hplan : Places g position a plan) (hk : a.kind = k.kind) {t : Tensor}
    (ht : k.evaluate (Reference.operands env a) = .ok t) :
    ∃ f', Frame.runPlan plan f = .next f' ∧
      Holds g (fun v => if v ∈ a.outputs then t else env v) (made ++ a.outputs) f' := by
  obtain ⟨operands, f₁, v, hv, hdesc, hrun, hpoised, hkeeps₁⟩ := h.poised hg hnext hplan hk
  obtain ⟨f', b, hkernel, hf', hkeeps', hb, hrow, hbt⟩ := hpoised.run_next ht plan.context
  obtain ⟨hproduced, hfresh⟩ := hnext.makes v (by simp [hv])
  refine ⟨f', hrun.trans hkernel, ?_⟩
  rw [hv]
  refine (h.enter operands).made_one hg hproduced hnext.made hfresh (hkeeps₁.trans hkeeps') hf' hb
    hrow hbt ?_
  obtain ⟨hdtype, hdims⟩ := Kernel.evaluate_shape ht
  rw [hdesc, Tensor.desc, hdtype, hdims]

/-- **An application whose reference fails** leaves with the same failure. -/
theorem Holds.runPlan_leave (h : Holds g env made f) (hg : g.WellFormed) (hnext : g.Next made a)
    (hplan : Places g position a plan) (hk : a.kind = k.kind) {message : String}
    (ht : k.evaluate (Reference.operands env a) = .error message) :
    ∃ f', Frame.runPlan plan f = .leave f' ∧ f'.Separate ∧ f'.outputs.length = g.outputs.length ∧
      f'.failure = some (Source.cText (plan.context.failure message)) := by
  obtain ⟨operands, f₁, v, -, -, hrun, hpoised, hkeeps⟩ := h.poised hg hnext hplan hk
  obtain ⟨f', hkernel, hf', houtputs, hfailure⟩ :=
    hpoised.run_leave ht (hkeeps.failure.trans h.failure) plan.context
  exact ⟨f', hrun.trans hkernel, hf', (houtputs.trans hkeeps.outputs).trans h.outputs, hfailure⟩

end

end OpFusion
