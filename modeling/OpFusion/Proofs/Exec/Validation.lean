/-
  Outputs are validated before a computation starts.

  An output slot keeps its buffer if that fits, and otherwise gets a new buffer of zeros, if there can be
  one (`ensure_provides`, `ensure_refuses`). The outputs of an application are put in place one after
  another. `Lined` says what holds as long as that goes well: each output is in place, is the buffer that
  was there or a new one, and nothing else has changed. It goes on until all outputs are in place or one of
  them cannot be allocated (`prepareAll_cases`).
-/
import OpFusion.Proofs.Exec.Addresses

namespace OpFusion

theorem Heap.lt_of_get? {h : Heap} {address : Nat} {b : Buffer} (hb : h.get? address = some b) :
    address < h.cells.length := by
  refine Nat.lt_of_not_le fun hle => ?_
  simp [Heap.get?, List.getElem?_eq_none hle] at hb

namespace Frame

variable {f f' f'' : Frame} {s : Slot} {address : Nat} {desc : VarDesc} {d : DType} {dims : List Int64}
  {b : Buffer} {c : Context} {o : OutputPlan} {outputs : List OutputPlan}

/-! ## Extents -/

/-- There can be a buffer of these extents: none is negative, and the shape is not refused. -/
def Allocatable (d : DType) (dims : List Int64) : Prop :=
  (∀ dim ∈ dims, 0 ≤ dim.toInt) ∧ ∃ b, Buffer.zeros d (dims.map fun dim => dim.toInt.toNat) = .ok b

theorem Allocatable.exists_extents (h : Allocatable d dims) :
    ∃ extents, dims = extents.map Int64.ofNat ∧ Buffer.Sound d extents := by
  obtain ⟨hnonneg, b, hb⟩ := h
  refine ⟨_, ?_, (Buffer.allocate_eq_ok.1 hb).1⟩
  rw [List.map_map]
  exact ((List.map_congr_left fun dim hdim => ofNat_toNat (hnonneg dim hdim)).trans (List.map_id dims)).symm

theorem shape_error (h : ¬ Allocatable d dims) :
    ∃ fault, shape d.tag dims.length (if dims.length = 0 then none else some dims) = .error fault := by
  cases hshape : shape d.tag dims.length (if dims.length = 0 then none else some dims) with
  | error fault => exact ⟨fault, rfl⟩
  | ok accepted =>
    obtain ⟨d', extents⟩ := accepted
    obtain ⟨rfl, hsound⟩ := shape_eq_ok hshape
    obtain ⟨b, hb⟩ : ∃ b, Buffer.zeros d extents = .ok b :=
      ⟨_, Buffer.allocate_eq_ok.2 ⟨hsound, rfl⟩⟩
    refine absurd ⟨fun dim hdim => ?_, b, ?_⟩ h
    · obtain ⟨n, hn, rfl⟩ := List.mem_map.1 hdim
      rw [Int64.toInt_ofNat_of_lt (hsound.extents n hn)]
      exact Int.natCast_nonneg n
    · rwa [hsound.map_toNat_ofNat]

/-- A buffer is in place for an output: it was there and fits, or none that fits was and it is new. -/
def Comes (f : Frame) (s : Slot) (desc : VarDesc) (dims : List Int64) (address : Nat) (b : Buffer) : Prop :=
  f.Accepted s desc dims address b ∨
    (∀ address' b', ¬ f.Accepted s desc dims address' b') ∧ f.heap.cells.length ≤ address ∧
      Buffer.zeros desc.dtype b.dims = .ok b

/-- What comes of putting a buffer into a slot. -/
structure Provides (f f' : Frame) (s : Slot) (desc : VarDesc) (dims : List Int64) (address : Nat)
    (b : Buffer) : Prop where
  separate : f'.Separate
  keeps : Keeps s f f'
  cells : f.heap.cells.length ≤ f'.heap.cells.length
  accepted : f'.Accepted s desc dims address b
  comes : f.Comes s desc dims address b

/-- What comes of a buffer that cannot be allocated: a failure is on record. -/
structure Refuses (f f' : Frame) : Prop where
  separate : f'.Separate
  inputs : f'.inputs = f.inputs
  outputs : f'.outputs.length = f.outputs.length
  temps : f'.temps.length = f.temps.length
  failure : ∃ message, f'.failure = f.failure.or (some message)

theorem Refuses.of_keeps (h : Refuses f' f'') (hkeeps : Keeps s f f') : Refuses f f'' where
  separate := h.separate
  inputs := h.inputs.trans hkeeps.inputs
  outputs := h.outputs.trans hkeeps.outputs
  temps := h.temps.trans hkeeps.temps
  failure := hkeeps.failure ▸ h.failure

/-- A slot that is empty gets a new buffer. -/
theorem fillSlot_provides (hf : f.Separate) (hs : ∀ i, s ≠ .input i) (hslot : f.slot? s = some none)
    (hd : Allocatable d dims) (message : String) :
    ∃ f' b, fillSlot message s ⟨d, dims.length⟩ dims f = .next f' ∧ f'.Separate ∧ Keeps s f f' ∧
      f.heap.cells.length ≤ f'.heap.cells.length ∧
      f'.Accepted s ⟨d, dims.length⟩ dims f.heap.cells.length b ∧ Buffer.zeros d b.dims = .ok b ∧
      f'.results = f.results := by
  obtain ⟨extents, rfl, hsound⟩ := hd.exists_extents
  obtain ⟨f', hfill, hf', hkeeps, hnew, hheap, hresults⟩ := fillSlot_fresh hf hs hslot hsound message
  have hb := Buffer.wellFormed_dense hsound .rowMajor (Buffer.length_zeroStorage hsound)
  rw [List.length_map]
  refine ⟨f', .dense d extents .rowMajor (Buffer.zeroStorage d extents), hfill, hf', hkeeps, ?_,
    ⟨hnew, ?_, ?_⟩, Buffer.allocate_eq_ok.2 ⟨hsound, rfl⟩, hresults⟩
  · simp [hheap, Heap.allocate]
  · rw [hheap, Heap.get?_allocate, if_pos rfl]
  · exact fits_iff.2 ⟨rfl, rfl, hb.isRowMajor_iff.2 rfl, rfl⟩

theorem fillSlot_refuses (hf : f.Separate) (hs : ∀ i, s ≠ .input i) (hslot : f.slot? s = some none)
    (hd : ¬ Allocatable d dims) (message : String) :
    ∃ f', fillSlot message s ⟨d, dims.length⟩ dims f = .leave f' ∧ Refuses f f' := by
  obtain ⟨fault, hshape⟩ := shape_error hd
  have hslot' : (f.record fault.message).slot? s = some none :=
    ((same_record f fault.message).slot? s).trans hslot
  let f' : Frame := { (f.record fault.message).record (Source.cText message) with status := 1 }
  have hslots : ∀ t, f'.slot? t = f.slot? t := fun t => by cases t <;> rfl
  refine ⟨f', ?_, hf.of_eq rfl hslots, rfl, rfl, rfl, fault.message, ?_⟩
  · simp only [fillSlot, allocate, allocateWith, hshape]
    rw [setSlot_self hs hslot']
    rfl
  · simp [f', record]

section

variable (hf : f.Separate) (hs : ∀ i, s ≠ .input i) {x : Option Nat} (hslot : f.slot? s = some x)

include hf hs hslot

/-- A buffer that does not fit is released, and the empty slot is filled. -/
theorem ensure_of_unfit (h : ∀ address b, ¬ f.Accepted s desc dims address b) (message : String) :
    ∃ f₁, ensure message s desc dims f = fillSlot message s desc dims f₁ ∧ f₁.Separate ∧ Keeps s f f₁ ∧
      f.heap.cells.length ≤ f₁.heap.cells.length ∧ f₁.slot? s = some none ∧ f₁.results = f.results := by
  cases x with
  | none => exact ⟨f, by rw [ensure, hslot]; rfl, hf, .refl s f, Nat.le_refl _, hslot, rfl⟩
  | some address =>
    obtain ⟨b, hb, -⟩ := hf.live s address hslot
    have hfits : ¬ fits b desc dims = true := fun hfits => h address b ⟨hslot, hb, hfits⟩
    obtain ⟨f₁, hrelease, hf₁, hkeeps, hempty, hresults⟩ := release_next hf hs hslot
    have hcells := ((Renewed.setSlot f s none).trans (release_renewed hrelease).1).cells
    refine ⟨f₁, ?_, hf₁, hkeeps, hcells, hempty, hresults⟩
    simp [ensure, hslot, Flow.given, hb, hfits, hrelease, Flow.andThen]

/-- **A slot keeps a buffer that fits, and gets a new one otherwise.** -/
theorem ensure_provides (hd : (∃ address b, f.Accepted s ⟨d, dims.length⟩ dims address b) ∨ Allocatable d dims)
    (message : String) :
    ∃ f' address b, ensure message s ⟨d, dims.length⟩ dims f = .next f' ∧
      Provides f f' s ⟨d, dims.length⟩ dims address b ∧ f'.results = f.results := by
  by_cases hold : ∃ address b, f.Accepted s ⟨d, dims.length⟩ dims address b
  · obtain ⟨address, b, haccepted⟩ := hold
    refine ⟨f, address, b, ?_, ⟨hf, .refl s f, Nat.le_refl _, haccepted, .inl haccepted⟩, rfl⟩
    simp [ensure, haccepted.slot, Flow.given, haccepted.buffer, haccepted.fits]
  · have hunfit : ∀ address b, ¬ f.Accepted s ⟨d, dims.length⟩ dims address b :=
      fun address b haccepted => hold ⟨address, b, haccepted⟩
    obtain ⟨f₁, hensure, hf₁, hkeeps, hcells, hempty, hresults⟩ := ensure_of_unfit hf hs hslot hunfit message
    obtain ⟨f', b, hfill, hf', hkeeps', hcells', haccepted, hzeros, hresults'⟩ :=
      fillSlot_provides hf₁ hs hempty (hd.resolve_left hold) message
    exact ⟨f', _, b, hensure.trans hfill, ⟨hf', hkeeps.trans hkeeps', hcells.trans hcells', haccepted,
      .inr ⟨hunfit, hcells, hzeros⟩⟩, hresults'.trans hresults⟩

/-- **If there is nothing that fits and nothing can be allocated, the call is left.** -/
theorem ensure_refuses (h : ∀ address b, ¬ f.Accepted s ⟨d, dims.length⟩ dims address b)
    (hd : ¬ Allocatable d dims) (message : String) :
    ∃ f', ensure message s ⟨d, dims.length⟩ dims f = .leave f' ∧ Refuses f f' := by
  obtain ⟨f₁, hensure, hf₁, hkeeps, -, hempty, -⟩ := ensure_of_unfit hf hs hslot h message
  obtain ⟨f', hfill, hrefuses⟩ := fillSlot_refuses hf₁ hs hempty hd message
  exact ⟨f', hensure.trans hfill, hrefuses.of_keeps hkeeps⟩

end

/-- The extents of an output have values, as many as it has axes. -/
def Measures (f : Frame) (o : OutputPlan) (dims : List Int64) : Prop :=
  o.extents.mapM f.extent? = some dims ∧ o.desc.rank = dims.length

/-- An output can be put in place: there is a buffer that fits, or one can be allocated. -/
def Admits (f : Frame) (o : OutputPlan) (dims : List Int64) : Prop :=
  (∃ address b, f.Accepted o.slot o.desc dims address b) ∨ Allocatable o.desc.dtype dims

section

variable (hf : f.Separate) (hs : ∀ i, o.slot ≠ .input i) {x : Option Nat} (hslot : f.slot? o.slot = some x)
  (hdims : f.Measures o dims)

include hf hs hslot hdims

theorem prepare_provides (hd : f.Admits o dims) (c : Context) (index : Nat) :
    ∃ f' address b, f.prepare c index o = .next f' ∧ Provides f f' o.slot o.desc dims address b ∧
      f'.results = f.results ++ [address] := by
  obtain ⟨hextents, hrank⟩ := hdims
  have hdesc : o.desc = ⟨o.desc.dtype, dims.length⟩ := by rw [← hrank]
  rw [Admits, hdesc] at hd
  obtain ⟨f₁, address, b, hensure, h, hresults⟩ :=
    ensure_provides hf hs hslot hd (Module.allocationFailure c index)
  rw [← hdesc] at hensure h
  have hslots : ∀ t, { f₁ with results := f₁.results ++ [address] }.slot? t = f₁.slot? t :=
    fun t => by cases t <;> rfl
  refine ⟨{ f₁ with results := f₁.results ++ [address] }, address, b, ?_, ⟨h.separate.of_eq rfl hslots, ?_,
    h.cells, ⟨(hslots _).trans h.accepted.slot, h.accepted.buffer, h.accepted.fits⟩, h.comes⟩, ?_⟩
  · simp [prepare, hextents, Flow.given, hensure, Flow.andThen, h.accepted.slot]
  · exact ⟨fun t ht => (hslots t).trans (h.keeps.slots t ht), h.keeps.buffers,
      fun a ha => (h.keeps.live a ha).imp_left (hslots _).trans, h.keeps.inputs, h.keeps.outputs,
      h.keeps.temps, h.keeps.operands, h.keeps.failure, h.keeps.status⟩
  · rw [hresults]

theorem prepare_refuses (hd : ¬ f.Admits o dims) (c : Context) (index : Nat) :
    ∃ f', f.prepare c index o = .leave f' ∧ Refuses f f' := by
  obtain ⟨hextents, hrank⟩ := hdims
  have hdesc : o.desc = ⟨o.desc.dtype, dims.length⟩ := by rw [← hrank]
  obtain ⟨hunfit, hnew⟩ := not_or.1 hd
  have hunfit' : ∀ address b, ¬ f.Accepted o.slot ⟨o.desc.dtype, dims.length⟩ dims address b :=
    fun address b haccepted => hunfit ⟨address, b, hdesc ▸ haccepted⟩
  obtain ⟨f', hensure, h⟩ := ensure_refuses hf hs hslot hunfit' hnew (Module.allocationFailure c index)
  refine ⟨f', ?_, h⟩
  rw [← hdesc] at hensure
  simp [prepare, hextents, Flow.given, hensure, Flow.andThen]

end

/-! ## All outputs -/

theorem prepareAll_append (c : Context) (index : Nat) (first rest : List OutputPlan) (f : Frame) :
    prepareAll c index (first ++ rest) f =
      (prepareAll c index first f).andThen (prepareAll c (index + first.length) rest) := by
  induction first generalizing index f with
  | nil => rfl
  | cons o first ih =>
    rw [List.cons_append, prepareAll, prepareAll, List.length_cons, Nat.add_comm first.length 1,
      ← Nat.add_assoc]
    cases f.prepare c index o with
    | next f₁ => exact ih (index + 1) f₁
    | leave f₁ => rfl
    | broken => rfl

theorem prepareAll_concat (c : Context) (index : Nat) (first : List OutputPlan) (o : OutputPlan) (f : Frame) :
    prepareAll c index (first ++ [o]) f =
      (prepareAll c index first f).andThen fun f => f.prepare c (index + first.length) o := by
  rw [prepareAll_append]
  cases prepareAll c index first f with
  | next f₁ =>
    show (f₁.prepare c _ o).andThen _ = f₁.prepare c _ o
    cases f₁.prepare c (index + first.length) o <;> rfl
  | leave f₁ => rfl
  | broken => rfl

/-- An output is in place as result number `count`, of what it was measured to be when its turn came. -/
def Stands (c : Context) (outputs : List OutputPlan) (f f' : Frame) (count : Nat) (o : OutputPlan) : Prop :=
  ∃ before dims address b, prepareAll c 0 (outputs.take count) f = .next before ∧ before.Measures o dims ∧
    f'.results[count]? = some address ∧ f'.Accepted o.slot o.desc dims address b ∧
    f.Comes o.slot o.desc dims address b

/-- What holds when outputs have been put in place: each stands, and nothing else differs. -/
structure Lined (c : Context) (outputs : List OutputPlan) (f f' : Frame) : Prop where
  separate : f'.Separate
  slots : ∀ s, (∀ o ∈ outputs, o.slot ≠ s) → f'.slot? s = f.slot? s
  buffers : ∀ s, (∀ o ∈ outputs, o.slot ≠ s) → ∀ address, f.slot? s = some (some address) →
    f'.heap.get? address = f.heap.get? address
  cells : f.heap.cells.length ≤ f'.heap.cells.length
  inputs : f'.inputs = f.inputs
  outputSlots : f'.outputs.length = f.outputs.length
  tempSlots : f'.temps.length = f.temps.length
  operands : f'.operands = f.operands
  failure : f'.failure = f.failure
  length : f'.results.length = outputs.length
  stands : ∀ count o, outputs[count]? = some o → Stands c outputs f f' count o

namespace Lined

theorem nil (c : Context) (hf : f.Separate) (hresults : f.results = []) : Lined c [] f f where
  separate := hf
  slots _ _ := rfl
  buffers _ _ _ _ := rfl
  cells := Nat.le_refl _
  inputs := rfl
  outputSlots := rfl
  tempSlots := rfl
  operands := rfl
  failure := rfl
  length := congrArg List.length hresults
  stands := by simp

/-- What fits a slot that is not among the outputs did so before. -/
theorem accepted_iff (h : Lined c outputs f f') (hs : ∀ o ∈ outputs, o.slot ≠ s) :
    f'.Accepted s desc dims address b ↔ f.Accepted s desc dims address b := by
  have hget : f.slot? s = some (some address) → (f'.heap.get? address = some b ↔ f.heap.get? address = some b) :=
    fun hslot => by rw [h.buffers s hs address hslot]
  constructor
  · rintro ⟨hslot, hbuffer, hfits⟩
    rw [h.slots s hs] at hslot
    exact ⟨hslot, (hget hslot).1 hbuffer, hfits⟩
  · rintro ⟨hslot, hbuffer, hfits⟩
    exact ⟨(h.slots s hs).trans hslot, (hget hslot).2 hbuffer, hfits⟩

theorem admits_iff (h : Lined c outputs f f') (hs : ∀ p ∈ outputs, p.slot ≠ o.slot) :
    f'.Admits o dims ↔ f.Admits o dims := by
  simp only [Admits, h.accepted_iff hs]

theorem refuses (h : Lined c outputs f f') (hrefuses : Refuses f' f'') : Refuses f f'' where
  separate := hrefuses.separate
  inputs := hrefuses.inputs.trans h.inputs
  outputs := hrefuses.outputs.trans h.outputSlots
  temps := hrefuses.temps.trans h.tempSlots
  failure := h.failure ▸ hrefuses.failure

/-- One more output is put in place. -/
theorem concat (h : Lined c outputs f f') (hrun : prepareAll c 0 outputs f = .next f')
    (hnew : ∀ p ∈ outputs, p.slot ≠ o.slot) (hdims : f'.Measures o dims)
    (hp : Provides f' f'' o.slot o.desc dims address b) (hresults : f''.results = f'.results ++ [address]) :
    Lined c (outputs ++ [o]) f f'' where
  separate := hp.separate
  slots s hs := (hp.keeps.slots s (hs o (by simp)).symm).trans (h.slots s fun p hm => hs p (by simp [hm]))
  buffers s hs a ha := by
    have hs' : ∀ p ∈ outputs, p.slot ≠ s := fun p hm => hs p (by simp [hm])
    rw [hp.keeps.buffers s (hs o (by simp)).symm a ((h.slots s hs').trans ha), h.buffers s hs' a ha]
  cells := h.cells.trans hp.cells
  inputs := hp.keeps.inputs.trans h.inputs
  outputSlots := hp.keeps.outputs.trans h.outputSlots
  tempSlots := hp.keeps.temps.trans h.tempSlots
  operands := hp.keeps.operands.trans h.operands
  failure := hp.keeps.failure.trans h.failure
  length := by rw [hresults, List.length_append, List.length_append, h.length]; rfl
  stands count p hget := by
    rcases Nat.lt_or_ge count outputs.length with hlt | hge
    · -- the earlier outputs are left alone
      rw [List.getElem?_append_left hlt] at hget
      obtain ⟨before, dims', address', b', hbefore, hmeasures, hresult, haccepted, hcomes⟩ := h.stands count p hget
      have hne : p.slot ≠ o.slot := hnew p (List.mem_of_getElem? hget)
      refine ⟨before, dims', address', b', ?_, hmeasures, ?_, ⟨?_, ?_, haccepted.fits⟩, hcomes⟩
      · rwa [List.take_append_of_le_length (Nat.le_of_lt hlt)]
      · rwa [hresults, List.getElem?_append_left (h.length ▸ hlt)]
      · exact (hp.keeps.slots _ hne).trans haccepted.slot
      · exact (hp.keeps.buffers _ hne _ haccepted.slot).trans haccepted.buffer
    · obtain rfl : count = outputs.length := by
        have hlt := (List.getElem?_eq_some_iff.1 hget).1
        rw [List.length_append, List.length_singleton] at hlt
        omega
      rw [List.getElem?_concat_length] at hget
      cases hget
      refine ⟨f', dims, address, b, ?_, hdims, ?_, hp.accepted, ?_⟩
      · rwa [List.take_left]
      · rw [hresults, ← h.length, List.getElem?_concat_length]
      · rcases hp.comes with hold | ⟨hunfit, hcells, hzeros⟩
        · exact .inl ((h.accepted_iff hnew).1 hold)
        · refine .inr ⟨fun a b' haccepted => ?_, h.cells.trans hcells, hzeros⟩
          exact hunfit a b' ((h.accepted_iff hnew).2 haccepted)

end Lined

/-- Outputs that can be put in place one after another: each has a slot of its own, and extents when its turn
comes. -/
structure Orderly (c : Context) (outputs : List OutputPlan) (f : Frame) : Prop where
  separate : f.Separate
  results : f.results = []
  slots : (outputs.map (·.slot)).Nodup
  inputs : ∀ o ∈ outputs, ∀ i, o.slot ≠ .input i
  exist : ∀ o ∈ outputs, ∃ x, f.slot? o.slot = some x
  measured : ∀ count o before, outputs[count]? = some o →
    prepareAll c 0 (outputs.take count) f = .next before → ∃ dims, before.Measures o dims

/-- An output cannot be put in place when its turn comes. -/
structure Stuck (c : Context) (outputs : List OutputPlan) (f : Frame) (count : Nat) (o : OutputPlan)
    (before : Frame) (dims : List Int64) : Prop where
  output : outputs[count]? = some o
  reached : prepareAll c 0 (outputs.take count) f = .next before
  measures : before.Measures o dims
  refused : ¬ f.Admits o dims

namespace Orderly

theorem take (h : Orderly c outputs f) (count : Nat) : Orderly c (outputs.take count) f where
  separate := h.separate
  results := h.results
  slots := by
    rw [List.map_take]
    exact h.slots.sublist (List.take_sublist ..)
  inputs o ho := h.inputs o (List.mem_of_mem_take ho)
  exist o ho := h.exist o (List.mem_of_mem_take ho)
  measured i o before hget hrun := by
    have hlt : i < count := by
      have hlt := (List.getElem?_eq_some_iff.1 hget).1
      rw [List.length_take] at hlt
      omega
    rw [List.getElem?_take_of_lt hlt] at hget
    rw [List.take_take, Nat.min_eq_left (Nat.le_of_lt hlt)] at hrun
    exact h.measured i o before hget hrun

/-- The slot of an output is another than those before it. -/
theorem slot_ne (h : Orderly c outputs f) {count : Nat} (hget : outputs[count]? = some o) :
    ∀ p ∈ outputs.take count, p.slot ≠ o.slot := by
  intro p hp heq
  obtain ⟨i, hi⟩ := List.mem_iff_getElem?.1 hp
  have hlt : i < count := by
    have hlt := (List.getElem?_eq_some_iff.1 hi).1
    rw [List.length_take] at hlt
    omega
  rw [List.getElem?_take_of_lt hlt] at hi
  obtain ⟨hi', rfl⟩ := List.getElem?_eq_some_iff.1 hi
  obtain ⟨hcount, rfl⟩ := List.getElem?_eq_some_iff.1 hget
  have hslots := List.pairwise_iff_getElem.1 h.slots i count (by simpa using hi') (by simpa using hcount) hlt
  simp only [List.getElem_map] at hslots
  exact hslots heq

/-- When those before it are in place, the turn of an output comes. -/
theorem prepare_cases (h : Orderly c outputs f) {count : Nat} {before : Frame} (hget : outputs[count]? = some o)
    (hrun : prepareAll c 0 (outputs.take count) f = .next before)
    (hlined : Lined c (outputs.take count) f before) (index : Nat) :
    ∃ dims, before.Measures o dims ∧
      ((f.Admits o dims ∧ ∃ f' address b, before.prepare c index o = .next f' ∧
          Provides before f' o.slot o.desc dims address b ∧ f'.results = before.results ++ [address]) ∨
        (¬ f.Admits o dims ∧ ∃ f', before.prepare c index o = .leave f' ∧ Refuses before f')) := by
  have hmem := List.mem_of_getElem? hget
  have hnew := h.slot_ne hget
  obtain ⟨x, hx⟩ := h.exist o hmem
  have hslot := (hlined.slots _ hnew).trans hx
  obtain ⟨dims, hdims⟩ := h.measured count o before hget hrun
  refine ⟨dims, hdims, ?_⟩
  by_cases hadmits : f.Admits o dims
  · exact .inl ⟨hadmits, prepare_provides hlined.separate (h.inputs o hmem) hslot hdims
      ((hlined.admits_iff hnew).2 hadmits) c index⟩
  · exact .inr ⟨hadmits, prepare_refuses hlined.separate (h.inputs o hmem) hslot hdims
      (fun hd => hadmits ((hlined.admits_iff hnew).1 hd)) c index⟩

/-- **Outputs are put in place** until all of them are or one is stuck, which ends the call. -/
theorem prepareAll_cases (h : Orderly c outputs f) :
    (∃ f', prepareAll c 0 outputs f = .next f' ∧ Lined c outputs f f') ∨
      ∃ f' count o before dims, prepareAll c 0 outputs f = .leave f' ∧ Refuses f f' ∧
        Stuck c outputs f count o before dims := by
  induction outputs using List.reverseRecOn with
  | nil => exact .inl ⟨f, rfl, .nil c h.separate h.results⟩
  | append_singleton outputs o ih =>
    have hlast : (outputs ++ [o])[outputs.length]? = some o := List.getElem?_concat_length
    have hbefore : Orderly c outputs f := by simpa using h.take outputs.length
    rw [prepareAll_concat]
    rcases ih hbefore with ⟨f₁, hrun, hlined⟩ | ⟨f₁, count, p, before, dims, hrun, hrefuses, hstuck⟩
    · have htake : prepareAll c 0 ((outputs ++ [o]).take outputs.length) f = .next f₁ := by
        rwa [List.take_left]
      have hnew : ∀ p ∈ outputs, p.slot ≠ o.slot := by simpa using h.slot_ne hlast
      rw [hrun]
      rcases h.prepare_cases hlast htake (by rwa [List.take_left]) (0 + outputs.length) with ⟨dims, hdims,
        ⟨-, f', address, b, hprepare, hp, hresults⟩ | ⟨hadmits, f', hprepare, hrefuses⟩⟩
      · exact .inl ⟨f', hprepare, hlined.concat hrun hnew hdims hp hresults⟩
      · exact .inr ⟨f', outputs.length, o, f₁, dims, hprepare, hlined.refuses hrefuses, hlast, htake, hdims,
          hadmits⟩
    · have hlt := (List.getElem?_eq_some_iff.1 hstuck.output).1
      rw [hrun]
      refine .inr ⟨f₁, count, p, before, dims, rfl, hrefuses, ?_, ?_, hstuck.measures, hstuck.refused⟩
      · rw [List.getElem?_append_left hlt, hstuck.output]
      · rw [List.take_append_of_le_length (Nat.le_of_lt hlt), hstuck.reached]

theorem lined (h : Orderly c outputs f) (hrun : prepareAll c 0 outputs f = .next f') :
    Lined c outputs f f' := by
  rcases h.prepareAll_cases with ⟨f₁, hrun₁, hlined⟩ | ⟨f₁, _, _, _, _, hrun₁, -⟩
  · cases hrun.symm.trans hrun₁
    exact hlined
  · cases hrun.symm.trans hrun₁

/-- To measure an output, those before it may be taken to be in place. -/
theorem of_lined (hf : f.Separate) (hresults : f.results = []) (hslots : (outputs.map (·.slot)).Nodup)
    (hinputs : ∀ o ∈ outputs, ∀ i, o.slot ≠ .input i) (hexist : ∀ o ∈ outputs, ∃ x, f.slot? o.slot = some x)
    (hmeasured : ∀ count o before, outputs[count]? = some o →
      prepareAll c 0 (outputs.take count) f = .next before → Lined c (outputs.take count) f before →
      ∃ dims, before.Measures o dims) : Orderly c outputs f := by
  suffices hall : ∀ n, Orderly c (outputs.take n) f by simpa using hall outputs.length
  intro n
  induction n with
  | zero => exact ⟨hf, hresults, by simp, by simp, by simp, by simp⟩
  | succ n ih =>
    refine ⟨hf, hresults, ?_, fun o ho => hinputs o (List.mem_of_mem_take ho),
      fun o ho => hexist o (List.mem_of_mem_take ho), fun count o before hget hrun => ?_⟩
    · rw [List.map_take]
      exact hslots.sublist (List.take_sublist ..)
    · have hlt : count < n + 1 := by
        have hlt := (List.getElem?_eq_some_iff.1 hget).1
        rw [List.length_take] at hlt
        omega
      rw [List.getElem?_take_of_lt hlt] at hget
      rw [List.take_take, Nat.min_eq_left (Nat.le_of_lt hlt)] at hrun
      have hlined : Lined c (outputs.take count) f before := by
        refine Orderly.lined ?_ hrun
        have htake := ih.take count
        rwa [List.take_take, Nat.min_eq_left (Nat.le_of_lt_succ hlt)] at htake
      exact hmeasured count o before hget hrun hlined

end Orderly

end Frame

end OpFusion
