/-
  Frames whose slots hold buffers of their own.

  In a separate frame every address in a slot is that of a live, well-formed buffer, and a slot other than
  that of an input shares its address with no other slot. Putting an output in place, writing to it and
  releasing temporaries then concern one slot each: what they leave alone is said by `Keeps`, and a frame
  stays separate (`Keeps.separate`).
-/
import OpFusion.Exec.Entry
import OpFusion.Proofs.Buffer.Dense

namespace OpFusion

namespace Heap

theorem get?_set {h h' : Heap} {target : Nat} {b : Buffer} (hs : h.set? target b = some h')
    (address : Nat) : h'.get? address = if address = target then some b else h.get? address := by
  obtain ⟨old, hold, rfl⟩ := Option.map_eq_some_iff.1 hs
  have hlt : target < h.cells.length := by
    refine Nat.lt_of_not_le fun hle => ?_
    simp [get?, List.getElem?_eq_none hle] at hold
  by_cases ha : address = target
  · simp [get?, ha, hlt]
  · simp [get?, ha, List.getElem?_set_ne (Ne.symm ha)]

/-- The next address is free. -/
theorem get?_next (h : Heap) : h.get? h.cells.length = none := by simp [get?]

end Heap

namespace Frame

variable {f f' f'' : Frame} {s t : Slot} {address : Nat}

/-! ## Slots -/

/-- The buffer in a slot. -/
def buffer? (f : Frame) (s : Slot) : Option Buffer := (f.slot? s).join.bind f.heap.get?

@[simp] theorem slot?_heap (f : Frame) (heap : Heap) (s : Slot) :
    { f with heap }.slot? s = f.slot? s := by cases s <;> rfl

theorem slot?_setSlot_ne (h : t ≠ s) (x : Option Nat) : (f.setSlot s x).slot? t = f.slot? t := by
  cases s <;> cases t <;> simp_all [setSlot, slot?, List.getElem?_set_ne, eq_comm]

theorem slot?_setSlot (hs : ∀ i, s ≠ .input i) {x : Option Nat} (h : f.slot? s = some x)
    (y : Option Nat) : (f.setSlot s y).slot? s = some y := by
  cases s with
  | input i => exact absurd rfl (hs i)
  | output i =>
    obtain ⟨hlt, -⟩ := List.getElem?_eq_some_iff.1 h
    simp [setSlot, slot?, hlt]
  | temp i =>
    obtain ⟨hlt, -⟩ := List.getElem?_eq_some_iff.1 h
    simp [setSlot, slot?, hlt]

/-- Every buffer in a slot is live and well-formed, and no two slots share one, unless both are inputs. -/
structure Separate (f : Frame) : Prop where
  live : ∀ s address, f.slot? s = some (some address) →
    ∃ b, f.heap.get? address = some b ∧ b.WellFormed
  apart : ∀ s t address, (∀ i, s ≠ .input i) → f.slot? s = some (some address) →
    f.slot? t = some (some address) → s = t

theorem Separate.of_eq (hf : f.Separate) (hheap : f'.heap = f.heap)
    (hslots : ∀ s, f'.slot? s = f.slot? s) : f'.Separate where
  live s address h := by
    rw [hheap]
    exact hf.live s address (hslots s ▸ h)
  apart s t address hinput hs ht := hf.apart s t address hinput (hslots s ▸ hs) (hslots t ▸ ht)

/-- A buffer in a slot that is no input is none of the inputs. -/
theorem Separate.not_input (hf : f.Separate) (hs : ∀ i, s ≠ .input i)
    (h : f.slot? s = some (some address)) : address ∉ f.inputs := by
  intro hin
  obtain ⟨i, hi⟩ := List.mem_iff_getElem?.1 hin
  have hinput : f.slot? (.input i) = some (some address) := by simp [slot?, hi]
  exact hs i (hf.apart s (.input i) address hs h hinput)

/-- The address of a buffer in a slot. -/
theorem Separate.exists_address (hf : f.Separate) {b : Buffer} (hb : f.buffer? s = some b) :
    ∃ address, f.slot? s = some (some address) ∧ f.heap.get? address = some b ∧ b.WellFormed := by
  unfold buffer? at hb
  match hslot : f.slot? s with
  | none => simp [hslot] at hb
  | some none => simp [hslot] at hb
  | some (some address) =>
    obtain ⟨b', hb', hw⟩ := hf.live s address hslot
    obtain rfl : b = b' := by simpa [hslot, hb'] using hb.symm
    exact ⟨address, rfl, hb', hw⟩

/-! ## What a step leaves alone -/

/-- Nothing but the slot `s` and its buffer differs. -/
structure Keeps (s : Slot) (f f' : Frame) : Prop where
  slots : ∀ t, t ≠ s → f'.slot? t = f.slot? t
  buffers : ∀ t, t ≠ s → ∀ address, f.slot? t = some (some address) →
    f'.heap.get? address = f.heap.get? address
  /-- A live buffer is in the slot, or was live before outside the slot. -/
  live : ∀ address, f'.heap.get? address ≠ none →
    f'.slot? s = some (some address) ∨ (f.heap.get? address ≠ none ∧ f.slot? s ≠ some (some address))
  inputs : f'.inputs = f.inputs
  outputs : f'.outputs.length = f.outputs.length
  temps : f'.temps.length = f.temps.length
  operands : f'.operands = f.operands
  failure : f'.failure = f.failure
  status : f'.status = f.status

namespace Keeps

theorem refl (s : Slot) (f : Frame) : Keeps s f f :=
  ⟨fun _ _ => rfl, fun _ _ _ _ => rfl, fun _ hlive => or_iff_not_imp_left.2 fun h => ⟨hlive, h⟩, rfl, rfl,
    rfl, rfl, rfl, rfl⟩

theorem trans (h : Keeps s f f') (h' : Keeps s f' f'') : Keeps s f f'' where
  slots t ht := (h'.slots t ht).trans (h.slots t ht)
  buffers t ht address ha :=
    (h'.buffers t ht address ((h.slots t ht).trans ha)).trans (h.buffers t ht address ha)
  live address ha := (h'.live address ha).imp_right fun ⟨hlive, hslot⟩ =>
    (h.live address hlive).resolve_left hslot
  inputs := h'.inputs.trans h.inputs
  outputs := h'.outputs.trans h.outputs
  temps := h'.temps.trans h.temps
  operands := h'.operands.trans h.operands
  failure := h'.failure.trans h.failure
  status := h'.status.trans h.status

theorem buffer? (h : Keeps s f f') (ht : t ≠ s) : f'.buffer? t = f.buffer? t := by
  rw [Frame.buffer?, Frame.buffer?, h.slots t ht]
  match hslot : f.slot? t with
  | none => rfl
  | some none => rfl
  | some (some address) => exact h.buffers t ht address hslot

/-- Another address in a slot and another heap, which has the same buffers for all other slots. -/
theorem setSlot (x : Option Nat) {heap : Heap}
    (h : ∀ t, t ≠ s → ∀ address, f.slot? t = some (some address) →
      heap.get? address = f.heap.get? address)
    (hlive : ∀ address, heap.get? address ≠ none → (f.setSlot s x).slot? s = some (some address) ∨
      (f.heap.get? address ≠ none ∧ f.slot? s ≠ some (some address))) :
    Keeps s f { f.setSlot s x with heap } where
  slots t ht := (slot?_heap _ _ t).trans (slot?_setSlot_ne ht x)
  buffers := h
  live address ha := (hlive address ha).imp_left (slot?_heap _ _ s).trans
  inputs := by cases s <;> rfl
  outputs := by cases s <;> simp [Frame.setSlot]
  temps := by cases s <;> simp [Frame.setSlot]
  operands := by cases s <;> rfl
  failure := by cases s <;> rfl
  status := by cases s <;> rfl

/-- A frame stays separate if the slot that changes holds nothing, or a live, well-formed buffer that
no other slot holds. -/
theorem separate (h : Keeps s f f') (hf : f.Separate)
    (hs : ∀ address, f'.slot? s = some (some address) →
      (∃ b, f'.heap.get? address = some b ∧ b.WellFormed) ∧
        ∀ t, t ≠ s → f.slot? t ≠ some (some address)) : f'.Separate where
  live t address ht := by
    by_cases hts : t = s
    · exact (hs address (hts ▸ ht)).1
    · rw [h.slots t hts] at ht
      rw [h.buffers t hts address ht]
      exact hf.live t address ht
  apart t u address hinput ht hu := by
    by_cases hts : t = s <;> by_cases hus : u = s
    · rw [hts, hus]
    · exact absurd ((h.slots u hus).symm.trans hu) ((hs address (hts ▸ ht)).2 u hus)
    · exact absurd ((h.slots t hts).symm.trans ht) ((hs address (hus ▸ hu)).2 t hts)
    · exact hf.apart t u address hinput ((h.slots t hts).symm.trans ht) ((h.slots u hus).symm.trans hu)

end Keeps

/-! ## Outputs in place -/

/-- A slot holds a row-major buffer of a type and extents, at an address. -/
structure Ready (f : Frame) (s : Slot) (d : DType) (dims : List Nat) (address : Nat) : Prop where
  slot : f.slot? s = some (some address)
  buffer : ∃ b, f.heap.get? address = some b ∧ b.dtype = d ∧ b.dims = dims ∧ b.isRowMajor = true

theorem fits_iff {b : Buffer} {desc : VarDesc} {dims : List Int64} :
    fits b desc dims = true ↔ b.dtype = desc.dtype ∧ b.rank = desc.rank ∧ b.isRowMajor = true ∧
      Strided.dims b = dims := by
  simp only [fits, Bool.and_eq_true, decide_eq_true_eq, and_assoc]

theorem ofTag?_tag (d : DType) : DType.ofTag? d.tag = some d := by cases d <;> rfl

/-- A shape that can be allocated is accepted. -/
theorem shape_eq {d : DType} {dims : List Nat} (h : Buffer.Sound d dims) :
    shape d.tag dims.length (if dims.length = 0 then none else some (dims.map Int64.ofNat)) =
      .ok (d, dims) := by
  have hnonneg : (dims.map Int64.ofNat).find? (fun dim => decide (dim.toInt < 0)) = none := by
    rw [List.find?_eq_none]
    intro dim hdim
    obtain ⟨n, hn, rfl⟩ := List.mem_map.1 hdim
    rw [Int64.toInt_ofNat_of_lt (h.extents n hn)]
    simp
  have hfault := (Buffer.sound_iff d dims).2 h
  by_cases h0 : dims.length = 0
  · have hnil := List.eq_nil_of_length_eq_zero h0
    subst hnil
    simp [shape, ofTag?_tag, hfault]
  · simp only [shape, ofTag?_tag, h0, if_false, Option.getD_some, hnonneg, h.map_toNat_ofNat, hfault]
    simp

/-- An empty slot gets the next address, and a buffer of zeros is there. -/
theorem fillSlot_fresh (hf : f.Separate) (hs : ∀ i, s ≠ .input i) (hslot : f.slot? s = some none)
    {d : DType} {dims : List Nat} (hd : Buffer.Sound d dims) (message : String) :
    ∃ f', fillSlot message s ⟨d, dims.length⟩ (dims.map Int64.ofNat) f = .next f' ∧
      f'.Separate ∧ Keeps s f f' ∧ f'.slot? s = some (some f.heap.cells.length) ∧
      f'.heap = (f.heap.allocate (.dense d dims .rowMajor (Buffer.zeroStorage d dims))).2 ∧
      f'.results = f.results := by
  let b := Buffer.dense d dims .rowMajor (Buffer.zeroStorage d dims)
  let f' : Frame := { f.setSlot s (some f.heap.cells.length) with heap := (f.heap.allocate b).2 }
  have hb : b.WellFormed := Buffer.wellFormed_dense hd .rowMajor (Buffer.length_zeroStorage hd)
  have hnew : f'.slot? s = some (some f.heap.cells.length) :=
    (slot?_heap _ _ s).trans (slot?_setSlot hs hslot _)
  have hget : f'.heap.get? f.heap.cells.length = some b := by
    simp [f', Heap.get?_allocate]
  have hfresh : ∀ t, f.slot? t ≠ some (some f.heap.cells.length) := by
    intro t ht
    obtain ⟨b', hb', -⟩ := hf.live t _ ht
    simp [Heap.get?_next] at hb'
  have hkeeps : Keeps s f f' := by
    refine .setSlot _ (fun t _ address ht => ?_) fun address hlive => ?_
    · rw [Heap.get?_allocate, if_neg]
      rintro rfl
      exact hfresh t ht
    · by_cases hnext : address = f.heap.cells.length
      · exact Or.inl (hnext ▸ slot?_setSlot hs hslot _)
      · rw [Heap.get?_allocate, if_neg hnext] at hlive
        exact Or.inr ⟨hlive, by simp [hslot]⟩
  refine ⟨f', ?_, hkeeps.separate hf fun address ha => ?_, hkeeps, hnew, rfl, by cases s <;> rfl⟩
  · simp only [fillSlot, allocate, allocateWith, shape_eq hd]
    cases s <;> rfl
  · obtain rfl : f.heap.cells.length = address := by simpa using hnew.symm.trans ha
    exact ⟨⟨b, hget, hb⟩, fun t _ => hfresh t⟩

theorem fillSlot_next (hf : f.Separate) (hs : ∀ i, s ≠ .input i) (hslot : f.slot? s = some none)
    {d : DType} {dims : List Nat} (hd : Buffer.Sound d dims) (message : String) :
    ∃ f' address, fillSlot message s ⟨d, dims.length⟩ (dims.map Int64.ofNat) f = .next f' ∧
      f'.Separate ∧ Keeps s f f' ∧ Ready f' s d dims address ∧ f'.results = f.results := by
  obtain ⟨f', hfill, hf', hkeeps, hnew, hheap, hresults⟩ := fillSlot_fresh hf hs hslot hd message
  have hb := Buffer.wellFormed_dense hd .rowMajor (Buffer.length_zeroStorage hd)
  refine ⟨f', _, hfill, hf', hkeeps, ⟨hnew, _, ?_, rfl, rfl, hb.isRowMajor_iff.2 rfl⟩, hresults⟩
  rw [hheap, Heap.get?_allocate, if_pos rfl]

/-- A slot that holds a buffer is emptied, and the buffer is gone. -/
theorem release_next (hf : f.Separate) (hs : ∀ i, s ≠ .input i)
    (hslot : f.slot? s = some (some address)) :
    ∃ f', (f.setSlot s none).release address = .next f' ∧ f'.Separate ∧ Keeps s f f' ∧
      f'.slot? s = some none ∧ f'.results = f.results := by
  obtain ⟨b, hb, -⟩ := hf.live s address hslot
  obtain ⟨heap, hheap⟩ : ∃ heap, f.heap.release? address = some heap := by
    simp [Heap.release?, hb]
  let f' : Frame := { f.setSlot s none with heap }
  have hempty : f'.slot? s = some none := (slot?_heap _ _ s).trans (slot?_setSlot hs hslot none)
  have hkeeps : Keeps s f f' := by
    refine .setSlot none (fun t ht other hother => ?_) fun other hlive => ?_
    · rw [Heap.get?_release hheap, if_neg]
      rintro rfl
      exact ht (hf.apart s t other hs hslot hother).symm
    · rw [Heap.get?_release hheap] at hlive
      by_cases hother : other = address
      · simp [hother] at hlive
      · rw [if_neg hother] at hlive
        exact Or.inr ⟨hlive, by simpa [hslot] using Ne.symm hother⟩
  refine ⟨f', ?_, hkeeps.separate hf fun other hother => ?_, hkeeps, hempty, by cases s <;> rfl⟩
  · have hinputs : (f.setSlot s none).inputs = f.inputs := by cases s <;> rfl
    have hsame : (f.setSlot s none).heap = f.heap := by cases s <;> rfl
    have hother : address ∉ (f.setSlot s none).inputs := hinputs ▸ hf.not_input hs hslot
    rw [release, if_neg hother, hsame, hheap, Flow.given]
  · rw [hempty] at hother
    cases hother

/-- **A slot for an output is put in place**, whatever it held before. -/
theorem ensure_next (hf : f.Separate) (hs : ∀ i, s ≠ .input i) {x : Option Nat}
    (hslot : f.slot? s = some x) {d : DType} {dims : List Nat} (hd : Buffer.Sound d dims)
    (message : String) :
    ∃ f' address, ensure message s ⟨d, dims.length⟩ (dims.map Int64.ofNat) f = .next f' ∧
      f'.Separate ∧ Keeps s f f' ∧ Ready f' s d dims address ∧ f'.results = f.results := by
  cases x with
  | none =>
    obtain ⟨f', address, hfill, hrest⟩ := fillSlot_next hf hs hslot hd message
    refine ⟨f', address, ?_, hrest⟩
    rw [ensure, hslot, Flow.given, hfill]
  | some address =>
    obtain ⟨b, hb, hw⟩ := hf.live s address hslot
    by_cases hfits : fits b ⟨d, dims.length⟩ (dims.map Int64.ofNat) = true
    · refine ⟨f, address, ?_, hf, .refl s f, ⟨hslot, b, hb, ?_⟩, rfl⟩
      · simp [ensure, hslot, Flow.given, hb, hfits]
      · obtain ⟨hdtype, -, hrow, hdims⟩ := fits_iff.1 hfits
        refine ⟨hdtype, ?_, hrow⟩
        rw [← hw.sound.map_toNat_ofNat, ← hd.map_toNat_ofNat, ← hdims, Strided.dims]
    · obtain ⟨f₁, hrelease, hf₁, hkeeps₁, hempty, hres₁⟩ := release_next hf hs hslot
      obtain ⟨f', address', hfill, hf', hkeeps', hready, hres'⟩ :=
        fillSlot_next hf₁ hs hempty hd message
      refine ⟨f', address', ?_, hf', hkeeps₁.trans hkeeps', hready, hres'.trans hres₁⟩
      simp [ensure, hslot, Flow.given, hb, hfits, hrelease, Flow.andThen, hfill]

/-- One output of an application is put in place, and its address is the next result. -/
theorem prepare_next (hf : f.Separate) {o : OutputPlan} (hs : ∀ i, o.slot ≠ .input i) {x : Option Nat}
    (hslot : f.slot? o.slot = some x) {dims : List Nat} (hd : Buffer.Sound o.desc.dtype dims)
    (hrank : o.desc.rank = dims.length)
    (hextents : o.extents.mapM f.extent? = some (dims.map Int64.ofNat)) (c : Context) (index : Nat) :
    ∃ f' address, f.prepare c index o = .next f' ∧ f'.Separate ∧ Keeps o.slot f f' ∧
      Ready f' o.slot o.desc.dtype dims address ∧ f'.results = f.results ++ [address] := by
  obtain ⟨f₁, address, hensure, hf₁, hkeeps, hready, hres⟩ :=
    ensure_next hf hs hslot hd (Module.allocationFailure c index)
  rw [← hrank] at hensure
  let f' : Frame := { f₁ with results := f₁.results ++ [address] }
  have hslots : ∀ t, f'.slot? t = f₁.slot? t := fun t => by cases t <;> rfl
  refine ⟨f', address, ?_, hf₁.of_eq rfl hslots, ?_, ?_, ?_⟩
  · simp [prepare, hextents, Flow.given, hensure, Flow.andThen, hready.slot, f']
  · exact ⟨fun t ht => (hslots t).trans (hkeeps.slots t ht), hkeeps.buffers,
      fun a ha => (hkeeps.live a ha).imp_left (hslots _).trans, hkeeps.inputs, hkeeps.outputs, hkeeps.temps,
      hkeeps.operands, hkeeps.failure, hkeeps.status⟩
  · exact ⟨(hslots _).trans hready.slot, hready.buffer⟩
  · simp [f', hres]

/-! ## Writing -/

/-- Bytes are written to the buffer of a result. -/
theorem write_next (hf : f.Separate) (hs : ∀ i, s ≠ .input i) {d : DType} {dims : List Nat}
    (hready : Ready f s d dims address) (hresult : f.results = [address]) {bytes : List UInt8}
    (hroom : bytes.length ≤ dims.prod * d.size) :
    ∃ f' b, f.write 0 0 bytes = .next f' ∧ f'.Separate ∧ Keeps s f f' ∧
      f.heap.get? address = some b ∧ f'.buffer? s = some (b.overwritten bytes) := by
  obtain ⟨b, hb, hdtype, hdims, hrow⟩ := hready.buffer
  obtain ⟨b', hb', hw⟩ := hf.live s address hready.slot
  obtain rfl : b = b' := Option.some.inj (hb.symm.trans hb')
  have hfits : bytes.length ≤ b.storage.length := by
    refine Nat.le_trans hroom ?_
    rw [← hdtype, ← hdims]
    exact hw.byteLength_le
  obtain ⟨heap, hheap⟩ : ∃ heap, f.heap.set? address (b.overwritten bytes) = some heap := by
    simp [Heap.set?, hb]
  have hget : heap.get? address = some (b.overwritten bytes) := by
    simp [Heap.get?_set hheap]
  let f' : Frame := { f with heap }
  have hslot : f'.slot? s = some (some address) := (slot?_heap _ _ s).trans hready.slot
  have hkeeps : Keeps s f f' := by
    refine ⟨fun t _ => slot?_heap _ _ t, fun t ht other hother => ?_, fun other hlive => ?_, rfl, rfl, rfl,
      rfl, rfl, rfl⟩
    · rw [Heap.get?_set hheap, if_neg]
      rintro rfl
      exact ht (hf.apart s t other hs hready.slot hother).symm
    · by_cases hother : other = address
      · exact Or.inl (hother ▸ hslot)
      · have hlive : heap.get? other ≠ none := hlive
        rw [Heap.get?_set hheap, if_neg hother] at hlive
        exact Or.inr ⟨hlive, by simpa [hready.slot] using Ne.symm hother⟩
  refine ⟨f', b, ?_, hkeeps.separate hf fun other hother => ?_, hkeeps, hb, ?_⟩
  · have hset : f.heap.set? address { b with storage := Buffer.writeBytes b.storage 0 bytes } =
        some heap := hheap
    simp [write, result?, hresult, hb, Flow.given, hfits, hset, f']
  · obtain rfl : address = other := by simpa using hslot.symm.trans hother
    exact ⟨⟨_, hget, hw.overwritten hfits⟩,
      fun t ht hsame => ht (hf.apart s t _ hs hready.slot hsame).symm⟩
  · rw [buffer?, hslot]
    exact hget

/-! ## Temporaries -/

/-- Buffers that are live, are no inputs and are all different are released one after another. -/
theorem foldl_release {addresses : List (Option Nat)}
    (hlive : ∀ address, some address ∈ addresses →
      address ∉ f.inputs ∧ ∃ b, f.heap.get? address = some b)
    (hapart : addresses.Pairwise fun x y => x ≠ none → x ≠ y) :
    ∃ heap : Heap,
      addresses.foldl (fun (flow : Flow) (address : Option Nat) =>
        flow.andThen (·.releaseSome address)) (.next f) = .next { f with heap } ∧
      ∀ address, heap.get? address = if some address ∈ addresses then none else f.heap.get? address := by
  induction addresses generalizing f with
  | nil => exact ⟨f.heap, rfl, by simp⟩
  | cons x addresses ih =>
    obtain ⟨hx, hrest⟩ := List.pairwise_cons.1 hapart
    cases x with
    | none =>
      obtain ⟨heap, hfold, hsame⟩ := ih (fun a ha => hlive a (by simp [ha])) hrest
      exact ⟨heap, hfold, fun a => by simp [hsame a]⟩
    | some address =>
      obtain ⟨hin, b, hb⟩ := hlive address (by simp)
      obtain ⟨heap₁, hheap₁⟩ : ∃ heap, f.heap.release? address = some heap := by
        simp [Heap.release?, hb]
      have hother : ∀ a, some a ∈ addresses → a ≠ address := by
        rintro a ha rfl
        exact hx _ ha (by simp) rfl
      obtain ⟨heap, hfold, hsame⟩ := ih (f := { f with heap := heap₁ }) (fun a ha => by
        obtain ⟨hin', b', hb'⟩ := hlive a (by simp [ha])
        refine ⟨hin', b', ?_⟩
        rw [Heap.get?_release hheap₁, if_neg (hother a ha), hb']) hrest
      refine ⟨heap, ?_, fun a => ?_⟩
      · rw [List.foldl_cons]
        simp only [Flow.andThen, releaseSome, release, hin, if_false, hheap₁, Flow.given]
        exact hfold
      · rw [hsame a]
        by_cases hne : a = address
        · simp [hne, Heap.get?_release hheap₁]
        · simp [hne, Heap.get?_release hheap₁]

/-- The temporary buffers of a separate frame are released, and all others stay. -/
theorem releaseTemps_eq (hf : f.Separate) :
    ∃ heap : Heap, f.releaseTemps = .next { f with heap } ∧
      ∀ address, heap.get? address = if some address ∈ f.temps then none else f.heap.get? address := by
  have htemp : ∀ {i address}, f.temps[i]? = some (some address) →
      f.slot? (.temp i) = some (some address) := fun h => h
  have hlive : ∀ address, some address ∈ f.temps →
      address ∉ f.inputs ∧ ∃ b, f.heap.get? address = some b := by
    intro address ha
    obtain ⟨i, hi⟩ := List.mem_iff_getElem?.1 ha
    obtain ⟨b, hb, -⟩ := hf.live (.temp i) address hi
    exact ⟨hf.not_input (by simp) (htemp hi), b, hb⟩
  refine foldl_release hlive ?_
  rw [List.pairwise_iff_getElem]
  intro i j hi hj hij hsome heq
  obtain ⟨address, ha⟩ := Option.ne_none_iff_exists'.1 hsome
  have hslots := hf.apart (.temp i) (.temp j) address (by simp)
    (htemp (by rw [List.getElem?_eq_getElem hi, ha]))
    (htemp (by rw [List.getElem?_eq_getElem hj, ← heq, ha]))
  cases hslots
  omega

end Frame

end OpFusion
