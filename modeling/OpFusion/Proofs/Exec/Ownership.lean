/-
  Every buffer of a call has one owner.

  `Owned start f`: in a frame `f` that has come from `start`, a live buffer is that of an input and is as it
  was, or is in exactly one other slot. No step of an entry function breaks a rule of memory in such a frame,
  and it goes on or leaves with such a frame (`Flow.Ends`): putting an output in place, whether or not the
  buffer can be allocated (`prepare_ends`), running a kernel (`Poised.run_ends`), and each statement that
  keeps to what is there. When the temporaries have been released, the inputs and the outputs are left
  (`Owned.finish`).
-/
import OpFusion.Proofs.Exec.Call

namespace OpFusion

/-! ## How steps end -/

namespace Flow

variable {P P' Q Q' : Frame → Prop} {flow : Flow}

/-- No rule of memory is broken; what goes on has `P`, and what leaves has `Q`. -/
def Ends (P Q : Frame → Prop) : Flow → Prop
  | .next f => P f
  | .leave f => Q f
  | .broken => False

theorem Ends.imp (h : flow.Ends P Q) (hP : ∀ f, P f → P' f) (hQ : ∀ f, Q f → Q' f) :
    flow.Ends P' Q' := by
  cases flow with
  | next f => exact hP f h
  | leave f => exact hQ f h
  | broken => exact h

theorem Ends.mono (h : flow.Ends P Q) (hP : ∀ f, P f → P' f) : flow.Ends P' Q :=
  h.imp hP fun _ hf => hf

theorem Ends.andThen {step : Frame → Flow} (h : flow.Ends P Q) (hstep : ∀ f, P f → (step f).Ends P' Q) :
    (flow.andThen step).Ends P' Q := by
  cases flow with
  | next f => exact hstep f h
  | leave f => exact h
  | broken => exact h

/-- Steps that each keep `P` do so one after another. -/
theorem Ends.foldl {α : Type} {run : α → Frame → Flow} {steps : List α} (h : flow.Ends P Q)
    (hstep : ∀ x ∈ steps, ∀ f, P f → (run x f).Ends P Q) :
    (steps.foldl (fun flow x => flow.andThen (run x)) flow).Ends P Q := by
  induction steps generalizing flow with
  | nil => exact h
  | cons x steps ih =>
    exact ih (h.andThen (hstep x (by simp))) fun y hy => hstep y (by simp [hy])

/-- Whatever a step leads to has `P`. -/
def Leads (P : Frame → Prop) : Flow → Prop
  | .next f => P f
  | .leave f => P f
  | .broken => True

theorem Leads.imp (h : flow.Leads P) (hP : ∀ f, P f → P' f) : flow.Leads P' := by
  cases flow with
  | next f => exact hP f h
  | leave f => exact hP f h
  | broken => trivial

theorem Leads.andThen {step : Frame → Flow} (h : flow.Leads P) (hmono : ∀ f, P f → P' f)
    (hstep : ∀ f, P f → (step f).Leads P') : (flow.andThen step).Leads P' := by
  cases flow with
  | next f => exact hstep f h
  | leave f => exact hmono f h
  | broken => trivial

theorem Leads.given {α : Type} {x : Option α} {step : α → Flow} (h : ∀ a, x = some a → (step a).Leads P) :
    (Flow.given x step).Leads P := by
  cases x with
  | some a => exact h a rfl
  | none => trivial

theorem Leads.foldl {α : Type} {run : α → Frame → Flow} {steps : List α} (h : flow.Leads P)
    (hstep : ∀ x ∈ steps, ∀ f, P f → (run x f).Leads P) :
    (steps.foldl (fun flow x => flow.andThen (run x)) flow).Leads P := by
  induction steps generalizing flow with
  | nil => exact h
  | cons x steps ih =>
    exact ih (h.andThen (fun _ hf => hf) (hstep x (by simp))) fun y hy => hstep y (by simp [hy])

theorem Ends.leads (h : flow.Ends P Q) (hleads : flow.Leads P') :
    flow.Ends (fun f => P f ∧ P' f) (fun f => Q f ∧ P' f) := by
  cases flow with
  | next f => exact ⟨h, hleads⟩
  | leave f => exact ⟨h, hleads⟩
  | broken => exact h

/-- Steps one after another. -/
def chain {α : Type} (run : α → Frame → Flow) (steps : List α) (f : Frame) : Flow :=
  steps.foldl (fun flow x => flow.andThen (run x)) (.next f)

theorem foldl_andThen {α : Type} (run : α → Frame → Flow) (steps : List α) (flow : Flow) :
    steps.foldl (fun flow x => flow.andThen (run x)) flow = flow.andThen (chain run steps) := by
  induction steps generalizing flow with
  | nil => cases flow <;> rfl
  | cons x steps ih =>
    cases flow with
    | next f => rfl
    | leave f => rw [List.foldl_cons, ih]; rfl
    | broken => rw [List.foldl_cons, ih]; rfl

theorem chain_cons {α : Type} (run : α → Frame → Flow) (x : α) (steps : List α) (f : Frame) :
    chain run (x :: steps) f = (run x f).andThen (chain run steps) :=
  foldl_andThen run steps (run x f)

theorem chain_append {α : Type} (run : α → Frame → Flow) (first rest : List α) (f : Frame) :
    chain run (first ++ rest) f = (chain run first f).andThen (chain run rest) := by
  rw [chain, List.foldl_append, foldl_andThen]
  rfl

end Flow

namespace Frame

variable {start f f' : Frame} {s : Slot} {address : Nat}

/-! ## Owned buffers -/

/-- A live buffer is in a slot, which is its own unless it is that of an input, and the inputs are as they
were at the start. -/
structure Owned (start f : Frame) : Prop where
  separate : f.Separate
  held : ∀ address, f.heap.get? address ≠ none → ∃ s, f.slot? s = some (some address)
  inputs : f.inputs = start.inputs
  outputs : f.outputs.length = start.outputs.length
  temps : f.temps.length = start.temps.length
  kept : ∀ address ∈ start.inputs, f.heap.get? address = start.heap.get? address

/-- The same slots, and a heap with the same buffers. -/
structure Same (f f' : Frame) : Prop where
  buffers : ∀ address, f'.heap.get? address = f.heap.get? address
  inputs : f'.inputs = f.inputs
  outputs : f'.outputs = f.outputs
  temps : f'.temps = f.temps

theorem Same.slot? (h : Same f f') (s : Slot) : f'.slot? s = f.slot? s := by
  cases s with
  | input i => simp [Frame.slot?, h.inputs]
  | output i => simp [Frame.slot?, h.outputs]
  | temp i => simp [Frame.slot?, h.temps]

theorem Same.buffer? (h : Same f f') (s : Slot) : f'.buffer? s = f.buffer? s := by
  rw [Frame.buffer?, Frame.buffer?, h.slot? s, funext h.buffers]

theorem Owned.same (h : Owned start f) (hsame : Same f f') : Owned start f' where
  separate := by
    refine ⟨fun s address hs => ?_, fun s t address hinput hs ht => ?_⟩
    · rw [hsame.buffers]
      exact h.separate.live s address (hsame.slot? s ▸ hs)
    · exact h.separate.apart s t address hinput (hsame.slot? s ▸ hs) (hsame.slot? t ▸ ht)
  held address ha := by
    rw [hsame.buffers] at ha
    obtain ⟨s, hs⟩ := h.held address ha
    exact ⟨s, (hsame.slot? s).trans hs⟩
  inputs := hsame.inputs.trans h.inputs
  outputs := (congrArg List.length hsame.outputs).trans h.outputs
  temps := (congrArg List.length hsame.temps).trans h.temps
  kept address ha := (hsame.buffers address).trans (h.kept address ha)

theorem slot?_input (h : address ∈ f.inputs) : ∃ i, f.slot? (.input i) = some (some address) := by
  obtain ⟨i, hi⟩ := List.mem_iff_getElem?.1 h
  exact ⟨i, by simp [slot?, hi]⟩

/-- Another buffer in one slot, or none. -/
theorem Owned.keeps (h : Owned start f) (hs : ∀ i, s ≠ .input i) (hkeeps : Keeps s f f')
    (hf' : f'.Separate) : Owned start f' where
  separate := hf'
  held address ha := by
    rcases hkeeps.live address ha with hslot | ⟨hlive, hslot⟩
    · exact ⟨s, hslot⟩
    · obtain ⟨t, ht⟩ := h.held address hlive
      have hts : t ≠ s := by
        rintro rfl
        exact hslot ht
      exact ⟨t, (hkeeps.slots t hts).trans ht⟩
  inputs := hkeeps.inputs.trans h.inputs
  outputs := hkeeps.outputs.trans h.outputs
  temps := hkeeps.temps.trans h.temps
  kept address ha := by
    rw [← h.kept address ha]
    obtain ⟨i, hi⟩ := slot?_input (h.inputs ▸ ha)
    exact hkeeps.buffers (.input i) (hs i).symm address hi

theorem same_record (f : Frame) (message : String) : Same f (f.record message) :=
  ⟨fun _ => rfl, rfl, rfl, rfl⟩

/-- A failure changes no buffer. -/
theorem Owned.fail_ends (h : Owned start f) (message : String) {P : Frame → Prop} :
    (f.fail message).Ends P (Owned start) := h.same ⟨fun _ => rfl, rfl, rfl, rfl⟩

/-! ## Outputs in place -/

theorem setSlot_self (hs : ∀ i, s ≠ .input i) {x : Option Nat} (h : f.slot? s = some x) :
    f.setSlot s x = f := by
  cases s with
  | input i => exact absurd rfl (hs i)
  | output i =>
    obtain ⟨hi, hx⟩ := List.getElem?_eq_some_iff.1 h
    simp [setSlot, ← hx]
  | temp i =>
    obtain ⟨hi, hx⟩ := List.getElem?_eq_some_iff.1 h
    simp [setSlot, ← hx]

theorem ofNat_toNat {x : Int64} (h : 0 ≤ x.toInt) : Int64.ofNat x.toInt.toNat = x := by
  have hx := Int64.ofInt_toInt x
  rw [← Int.toNat_of_nonneg h] at hx
  exact hx

/-- Extents that are accepted are the words of a shape that can be allocated. -/
theorem shape_eq_ok {d d' : DType} {dims : List Int64} {extents : List Nat}
    (h : shape d.tag dims.length (if dims.length = 0 then none else some dims) = .ok (d', extents)) :
    dims = extents.map Int64.ofNat ∧ Buffer.Sound d extents := by
  have hgiven : ¬ (dims.length ≠ 0 ∧ (if dims.length = 0 then none else some dims) = none) := by
    rintro ⟨hne, hnone⟩
    rw [if_neg hne] at hnone
    cases hnone
  have hgetD : (if dims.length = 0 then none else some dims).getD [] = dims := by
    by_cases hnil : dims.length = 0
    · rw [if_pos hnil, List.eq_nil_of_length_eq_zero hnil, Option.getD_none]
    · rw [if_neg hnil, Option.getD_some]
  simp only [shape, ofTag?_tag, if_neg hgiven, hgetD] at h
  split at h
  · cases h
  next hneg =>
  split at h
  · cases h
  next hfault =>
  cases h
  refine ⟨?_, (Buffer.sound_iff d _).1 hfault⟩
  rw [List.map_map]
  refine ((List.map_congr_left fun dim hdim => ?_).trans (List.map_id dims)).symm
  have hnonneg : 0 ≤ dim.toInt := by simpa using List.find?_eq_none.1 hneg dim hdim
  exact ofNat_toNat hnonneg

/-- What comes of putting a buffer of a type and extents into a slot. -/
structure Filled (s : Slot) (d : DType) (dims : List Int64) (f f' : Frame) : Prop where
  separate : f'.Separate
  keeps : Keeps s f f'
  ready : ∃ extents address, dims = extents.map Int64.ofNat ∧ Ready f' s d extents address
  results : f'.results = f.results

/-- An empty slot is filled, or stays empty if the buffer cannot be allocated. -/
theorem Owned.fillSlot_ends (h : Owned start f) (hs : ∀ i, s ≠ .input i) (hslot : f.slot? s = some none)
    {d : DType} (dims : List Int64) (message : String) :
    (fillSlot message s ⟨d, dims.length⟩ dims f).Ends (Filled s d dims f) (Owned start) := by
  cases hshape : shape d.tag dims.length (if dims.length = 0 then none else some dims) with
  | ok shape =>
    obtain ⟨d', extents⟩ := shape
    obtain ⟨rfl, hsound⟩ := shape_eq_ok hshape
    obtain ⟨f', address, hfill, hf', hkeeps, hready, hresults⟩ :=
      fillSlot_next h.separate hs hslot hsound message
    rw [List.length_map, hfill]
    exact ⟨hf', hkeeps, ⟨extents, address, rfl, hready⟩, hresults⟩
  | error fault =>
    simp only [fillSlot, allocate, allocateWith, hshape]
    have hslot' : (f.record fault.message).slot? s = some none :=
      ((same_record f fault.message).slot? s).trans hslot
    rw [setSlot_self hs hslot']
    exact (h.same (same_record f _)).fail_ends message

/-- **A slot for an output is put in place**, whatever it held before, or is left empty. -/
theorem Owned.ensure_ends (h : Owned start f) (hs : ∀ i, s ≠ .input i) {x : Option Nat}
    (hslot : f.slot? s = some x) {d : DType} (dims : List Int64) (message : String) :
    (ensure message s ⟨d, dims.length⟩ dims f).Ends (Filled s d dims f) (Owned start) := by
  cases x with
  | none =>
    rw [ensure, hslot]
    exact h.fillSlot_ends hs hslot dims message
  | some address =>
    obtain ⟨b, hb, hw⟩ := h.separate.live s address hslot
    by_cases hfits : fits b ⟨d, dims.length⟩ dims = true
    · have hensure : ensure message s ⟨d, dims.length⟩ dims f = .next f := by
        simp [ensure, hslot, Flow.given, hb, hfits]
      rw [hensure]
      obtain ⟨hdtype, -, hrow, hdims⟩ := fits_iff.1 hfits
      exact ⟨h.separate, .refl s f, ⟨b.dims, address, hdims.symm, hslot, b, hb, hdtype, rfl, hrow⟩, rfl⟩
    · obtain ⟨f₁, hrelease, hf₁, hkeeps, hempty, hresults⟩ := release_next h.separate hs hslot
      have hensure : ensure message s ⟨d, dims.length⟩ dims f =
          fillSlot message s ⟨d, dims.length⟩ dims f₁ := by
        simp [ensure, hslot, Flow.given, hb, hfits, hrelease, Flow.andThen]
      rw [hensure]
      refine ((h.keeps hs hkeeps hf₁).fillSlot_ends hs hempty dims message).mono fun f' hfilled => ?_
      exact ⟨hfilled.separate, hkeeps.trans hfilled.keeps, hfilled.ready, hfilled.results.trans hresults⟩

/-- What comes of putting an output of an application in place. -/
structure Prepared (o : OutputPlan) (dims : List Int64) (f f' : Frame) : Prop where
  separate : f'.Separate
  keeps : Keeps o.slot f f'
  ready : ∃ extents address, dims = extents.map Int64.ofNat ∧
    Ready f' o.slot o.desc.dtype extents address ∧ f'.results = f.results ++ [address]

theorem Owned.prepare_ends (h : Owned start f) {o : OutputPlan} (hs : ∀ i, o.slot ≠ .input i) {x : Option Nat}
    (hslot : f.slot? o.slot = some x) {dims : List Int64} (hextents : o.extents.mapM f.extent? = some dims)
    (hrank : o.desc.rank = dims.length) (c : Context) (index : Nat) :
    (f.prepare c index o).Ends (Prepared o dims f) (Owned start) := by
  have hdesc : o.desc = ⟨o.desc.dtype, dims.length⟩ := by rw [← hrank]
  rw [prepare, hextents, Flow.given]
  refine (hdesc ▸ h.ensure_ends hs hslot dims (Module.allocationFailure c index)).andThen ?_
  rintro f₁ ⟨hf₁, hkeeps, ⟨extents, address, rfl, hready⟩, hresults⟩
  rw [hready.slot]
  have hslots : ∀ t, { f₁ with results := f₁.results ++ [address] }.slot? t = f₁.slot? t :=
    fun t => by cases t <;> rfl
  refine ⟨hf₁.of_eq rfl hslots, ?_, extents, address, rfl, ⟨(hslots _).trans hready.slot, hready.buffer⟩, ?_⟩
  · exact ⟨fun t ht => (hslots t).trans (hkeeps.slots t ht), hkeeps.buffers,
      fun a ha => (hkeeps.live a ha).imp_left (hslots _).trans, hkeeps.inputs, hkeeps.outputs, hkeeps.temps,
      hkeeps.operands, hkeeps.failure, hkeeps.status⟩
  · rw [hresults]

/-! ## Computations -/

/-- A kernel writes to its result and nothing else, and may report a failure after that. -/
theorem Poised.run_keeps {k : Kernel} {operand : Nat → Tensor} (hp : f.Poised k operand s) (c : Context) :
    (k.run c f).Ends (fun f' => f'.Separate ∧ Keeps s f f' ∧
        ∃ b, f'.buffer? s = some b ∧ b.dtype = k.dtype ∧ b.dims = k.resultDims operand)
      (fun f'' => ∃ f', f'.Separate ∧ Keeps s f f' ∧ Same f' f'') := by
  obtain ⟨w, hcompute, hw⟩ := Kernel.compute_eq hp.accepts hp.operands
  obtain ⟨f', b, hwrite, hf', hkeeps, hb, hfull⟩ := hp.written hw
  rw [Kernel.run, hcompute, Flow.given, hwrite, Flow.andThen]
  cases hfailure : w.failure with
  | some message => exact ⟨f', hf', hkeeps, fun _ => rfl, rfl, rfl, rfl⟩
  | none =>
    obtain ⟨-, htensor⟩ := hfull hfailure
    exact ⟨hf', hkeeps, b, hb, congrArg Tensor.dtype htensor, congrArg Tensor.dims htensor⟩

/-- A kernel leaves all buffers owned. -/
theorem Poised.run_ends {k : Kernel} {operand : Nat → Tensor} (hp : f.Poised k operand s)
    (h : Owned start f) (c : Context) :
    (k.run c f).Ends (fun f' => f'.Separate ∧ Keeps s f f' ∧
      ∃ b, f'.buffer? s = some b ∧ b.dtype = k.dtype ∧ b.dims = k.resultDims operand) (Owned start) := by
  refine (hp.run_keeps c).imp (fun f' hf' => hf') ?_
  rintro f'' ⟨f', hf', hkeeps, hsame⟩
  exact (h.keeps hp.slot hkeeps hf').same hsame

/-- A buffer that is allocated and given up at once leaves nothing behind. -/
theorem Owned.reserve_ends (h : Owned start f) (tag rank : Nat) (dims : Option (List Int64)) :
    ((f.reserve tag rank dims).2.releaseSome (f.reserve tag rank dims).1).Ends
      (fun f' => Same f f' ∧ f'.operands = f.operands) (Owned start) := by
  unfold reserve allocateWith
  cases shape tag rank dims with
  | error fault => exact ⟨same_record f fault.message, rfl⟩
  | ok shape =>
    obtain ⟨d, extents⟩ := shape
    have hfresh : f.heap.cells.length ∉ f.inputs := by
      intro hin
      obtain ⟨i, hi⟩ := slot?_input hin
      obtain ⟨b, hb, -⟩ := h.separate.live _ _ hi
      simp [Heap.get?_next] at hb
    let b : Buffer := .dense d extents .rowMajor []
    have hget := Heap.get?_allocate f.heap b f.heap.cells.length
    obtain ⟨heap, hheap⟩ : ∃ heap, (f.heap.allocate b).2.release? f.heap.cells.length = some heap := by
      simp [Heap.release?, hget]
    have hrelease : ({ f with heap := (f.heap.allocate b).2 } : Frame).release f.heap.cells.length =
        .next { f with heap } := by
      rw [release, if_neg hfresh, hheap, Flow.given]
    show (({ f with heap := (f.heap.allocate b).2 } : Frame).release f.heap.cells.length).Ends _ _
    rw [hrelease]
    refine ⟨⟨fun a => ?_, rfl, rfl, rfl⟩, rfl⟩
    show heap.get? a = f.heap.get? a
    rw [Heap.get?_release hheap, Heap.get?_allocate]
    split
    · next ha => rw [ha, Heap.get?_next]
    · rfl

/-- What is in an output slot is given up. -/
theorem Owned.drop_ends (h : Owned start f) {index : Nat} (c : Context) (hindex : index < f.outputs.length) :
    ((Statement.dropOutput index).run c f).Ends
      (fun f' => f'.Separate ∧ Keeps (.output index) f f') (Owned start) := by
  have hslot : f.slot? (.output index) = some f.outputs[index] := List.getElem?_eq_getElem hindex
  simp only [Statement.run, List.getElem?_eq_getElem hindex, Flow.given]
  cases hx : f.outputs[index] with
  | none =>
    rw [hx] at hslot
    show Flow.Ends _ _ (.next (f.setSlot (.output index) none))
    rw [setSlot_self (by simp) hslot]
    exact ⟨h.separate, .refl _ f⟩
  | some address =>
    rw [hx] at hslot
    obtain ⟨f', hrelease, hf', hkeeps, -, -⟩ := release_next h.separate (by simp) hslot
    have hinput := h.separate.not_input (by simp) hslot
    -- it makes no difference whether the slot is emptied before or after the release
    rw [release, if_neg (show address ∉ (f.setSlot (.output index) none).inputs from hinput),
      show (f.setSlot (.output index) none).heap = f.heap from rfl] at hrelease
    show ((f.release address).andThen fun f => .next (f.setSlot (.output index) none)).Ends _ _
    rw [release, if_neg hinput]
    cases hheap : f.heap.release? address with
    | none =>
      rw [hheap] at hrelease
      cases hrelease
    | some heap =>
      rw [hheap] at hrelease
      cases hrelease
      exact ⟨hf', hkeeps⟩

end Frame

/-! ## Buffers that are handed over -/

namespace Heap

theorem mem_live {h : Heap} {address : Nat} : address ∈ h.live ↔ h.get? address ≠ none := by
  rw [live, List.mem_filter, List.mem_range, Option.isSome_iff_ne_none]
  refine and_iff_right_of_imp fun hlive => Nat.lt_of_not_le fun hle => hlive ?_
  simp [get?, List.getElem?_eq_none hle]

theorem nodup_live (h : Heap) : h.live.Nodup := List.nodup_range.filter _

end Heap

theorem nodup_reduceOption_iff {l : List (Option Nat)} :
    l.reduceOption.Nodup ↔
      ∀ i j address : Nat, l[i]? = some (some address) → l[j]? = some (some address) → i = j := by
  rw [List.reduceOption, List.Nodup, List.pairwise_filterMap, List.pairwise_iff_getElem]
  constructor
  · intro h i j address hi hj
    obtain ⟨hilt, hi⟩ := List.getElem?_eq_some_iff.1 hi
    obtain ⟨hjlt, hj⟩ := List.getElem?_eq_some_iff.1 hj
    rcases Nat.lt_trichotomy i j with hlt | heq | hlt
    · exact absurd rfl (h i j hilt hjlt hlt address hi address hj)
    · exact heq
    · exact absurd rfl (h j i hjlt hilt hlt address hj address hi)
  · rintro h i j hi hj hlt a ha b hb rfl
    have := h i j a (List.getElem?_eq_some_iff.2 ⟨hi, ha⟩) (List.getElem?_eq_some_iff.2 ⟨hj, hb⟩)
    omega

namespace Frame

variable {start f : Frame} {inputs : List Buffer} {outputs : List (Option Buffer)}

/-- The buffers of the inputs and in the output slots are given, and they are all that is live: each is
an input, or is in one output slot. -/
structure Hands (f : Frame) (inputs : List Buffer) (outputs : List (Option Buffer)) : Prop where
  inputs : f.inputs.map f.heap.get? = inputs.map some
  outputs : f.outputs.map (fun x => x.bind f.heap.get?) = outputs
  once : f.heap.live.Perm (f.inputs.dedup ++ f.outputs.reduceOption)

theorem Hands.nodup (h : f.Hands inputs outputs) : (f.inputs.dedup ++ f.outputs.reduceOption).Nodup :=
  h.once.nodup_iff.1 f.heap.nodup_live

theorem Hands.live_iff (h : f.Hands inputs outputs) (address : Nat) :
    f.heap.get? address ≠ none ↔ address ∈ f.inputs ∨ some address ∈ f.outputs := by
  rw [← Heap.mem_live, h.once.mem_iff, List.mem_append, List.mem_dedup, List.reduceOption_mem_iff]

theorem Hands.input_wellFormed (h : f.Hands inputs outputs) (hin : ∀ b ∈ inputs, b.WellFormed)
    {address : Nat} (ha : address ∈ f.inputs) : ∃ b, f.heap.get? address = some b ∧ b.WellFormed := by
  have hmem : f.heap.get? address ∈ inputs.map some := h.inputs ▸ List.mem_map_of_mem ha
  obtain ⟨b, hb, heq⟩ := List.mem_map.1 hmem
  exact ⟨b, heq.symm, hin b hb⟩

theorem Hands.output_wellFormed (h : f.Hands inputs outputs) (hout : ∀ b, some b ∈ outputs → b.WellFormed)
    {address : Nat} (ha : some address ∈ f.outputs) :
    ∃ b, f.heap.get? address = some b ∧ b.WellFormed := by
  have hlive : f.heap.get? address ≠ none := (h.live_iff address).2 (.inr ha)
  obtain ⟨b, hb⟩ := Option.ne_none_iff_exists'.1 hlive
  refine ⟨b, hb, hout b ?_⟩
  rw [← h.outputs]
  exact List.mem_map.2 ⟨some address, ha, hb⟩

/-- The frame in which the applications of an entry function start: the temporary slots are empty. -/
def opened (f : Frame) (code : Code) : Frame :=
  { f with
    temps := List.replicate code.tempCount none
    inputCount := UInt64.ofNat f.inputs.length
    outputCount := UInt64.ofNat f.outputs.length
    program := code.program }

theorem opened_temp {code : Code} {i address : Nat} : (f.opened code).slot? (.temp i) ≠ some (some address) := by
  intro h
  cases List.eq_of_mem_replicate (List.mem_of_getElem? h)

/-- **What is handed over at the start is owned.** -/
theorem Hands.owned (h : f.Hands inputs outputs) (hin : ∀ b ∈ inputs, b.WellFormed)
    (hout : ∀ b, some b ∈ outputs → b.WellFormed) (code : Code) :
    Owned (f.opened code) (f.opened code) where
  separate := by
    obtain ⟨-, hnodup, hdisjoint⟩ := List.nodup_append.1 h.nodup
    refine ⟨fun s address hs => ?_, fun s t address hinput hs ht => ?_⟩
    · cases s with
      | input i =>
        obtain ⟨a, ha, heq⟩ := Option.map_eq_some_iff.1 hs
        cases heq
        exact h.input_wellFormed hin (List.mem_of_getElem? ha)
      | output i => exact h.output_wellFormed hout (List.mem_of_getElem? hs)
      | temp i => exact absurd hs opened_temp
    · cases s with
      | input i => exact absurd rfl (hinput i)
      | temp i => exact absurd hs opened_temp
      | output i =>
        have hmem : address ∈ f.outputs.reduceOption :=
          List.reduceOption_mem_iff.2 (List.mem_of_getElem? hs)
        cases t with
        | input j =>
          obtain ⟨a, ha, heq⟩ := Option.map_eq_some_iff.1 ht
          cases heq
          exact absurd rfl (hdisjoint address (List.mem_dedup.2 (List.mem_of_getElem? ha)) address hmem)
        | output j => rw [nodup_reduceOption_iff.1 hnodup i j address hs ht]
        | temp j => exact absurd ht opened_temp
  held address hlive := by
    rcases (h.live_iff address).1 hlive with hmem | hmem
    · obtain ⟨i, hi⟩ := slot?_input hmem
      exact ⟨.input i, hi⟩
    · obtain ⟨i, hi⟩ := List.mem_iff_getElem?.1 hmem
      exact ⟨.output i, hi⟩
  inputs := rfl
  outputs := rfl
  temps := rfl
  kept _ _ := rfl

/-- **What is owned when the temporaries have been released is handed back.** -/
theorem Owned.finish (h : Owned start f) (hinputs : start.inputs.map start.heap.get? = inputs.map some) :
    ∃ heap slots, f.releaseTemps = .next { f with heap } ∧
      Loaded.collect? { f with heap } = some slots ∧ Hands { f with heap } inputs slots ∧
      ∀ b, some b ∈ slots → b.WellFormed := by
  obtain ⟨heap, hrelease, hheap⟩ := releaseTemps_eq h.separate
  have htemp : ∀ {address : Nat}, some address ∈ f.temps → ∃ i, f.slot? (.temp i) = some (some address) :=
    fun hmem => List.mem_iff_getElem?.1 hmem
  have houtput : ∀ {address : Nat}, some address ∈ f.outputs →
      ∃ i, f.slot? (.output i) = some (some address) := fun hmem => List.mem_iff_getElem?.1 hmem
  -- what is left alone by the release
  have hkeptInput : ∀ address ∈ f.inputs, heap.get? address = f.heap.get? address := by
    intro address hin
    rw [hheap, if_neg]
    intro hmem
    obtain ⟨i, hi⟩ := htemp hmem
    exact h.separate.not_input (by simp) hi hin
  have hkeptOutput : ∀ address, some address ∈ f.outputs → heap.get? address = f.heap.get? address := by
    intro address hout
    rw [hheap, if_neg]
    intro hmem
    obtain ⟨i, hi⟩ := htemp hmem
    obtain ⟨j, hj⟩ := houtput hout
    cases h.separate.apart _ _ address (by simp) hi hj
  refine ⟨heap, _, hrelease, collect?_eq h.separate fun i address hi =>
    hkeptOutput address (List.mem_of_getElem? hi), ⟨?_, ?_, ?_⟩, ?_⟩
  · show f.inputs.map heap.get? = inputs.map some
    rw [← hinputs, ← h.inputs]
    exact List.map_congr_left fun address ha =>
      (hkeptInput address ha).trans (h.kept address (h.inputs ▸ ha))
  · refine List.map_congr_left fun x hx => ?_
    cases x with
    | none => rfl
    | some address => exact hkeptOutput address hx
  · have hnodup : (f.inputs.dedup ++ f.outputs.reduceOption).Nodup := by
      rw [List.nodup_append]
      refine ⟨List.nodup_dedup _, nodup_reduceOption_iff.2 fun i j address hi hj => ?_, ?_⟩
      · exact Slot.output.inj (h.separate.apart (.output i) (.output j) address (by simp) hi hj)
      · rintro address hin _ hout rfl
        obtain ⟨i, hi⟩ := houtput (List.reduceOption_mem_iff.1 hout)
        exact h.separate.not_input (by simp) hi (List.mem_dedup.1 hin)
    refine (List.perm_ext_iff_of_nodup (Heap.nodup_live heap) hnodup).2 fun address => ?_
    show address ∈ heap.live ↔ _
    rw [Heap.mem_live, List.mem_append, List.mem_dedup, List.reduceOption_mem_iff]
    constructor
    · intro hlive
      rw [hheap] at hlive
      split at hlive
      · exact absurd rfl hlive
      · next hnot =>
        obtain ⟨s, hs⟩ := h.held address hlive
        cases s with
        | input i =>
          obtain ⟨a, ha, heq⟩ := Option.map_eq_some_iff.1 hs
          cases heq
          exact .inl (List.mem_of_getElem? ha)
        | output i => exact .inr (List.mem_of_getElem? hs)
        | temp i => exact absurd (List.mem_of_getElem? hs) hnot
    · rintro (hin | hout)
      · rw [hkeptInput address hin]
        obtain ⟨i, hi⟩ := slot?_input hin
        obtain ⟨b, hb, -⟩ := h.separate.live _ _ hi
        simp [hb]
      · rw [hkeptOutput address hout]
        obtain ⟨i, hi⟩ := houtput hout
        obtain ⟨b, hb, -⟩ := h.separate.live _ _ hi
        simp [hb]
  · intro b hb
    obtain ⟨x, hx, heq⟩ := List.mem_map.1 hb
    cases x with
    | none => cases heq
    | some address =>
      obtain ⟨i, hi⟩ := houtput hx
      obtain ⟨b', hb', hw⟩ := h.separate.live _ _ hi
      obtain rfl : b = b' := Option.some.inj (heq.symm.trans hb')
      exact hw

end Frame

/-! ## Calls hand over what they are given -/

namespace Loaded

/-- The addresses that are given to the buffers in slots are the next ones. -/
theorem reduceOption_place (next : Nat) (slots : List (Option Buffer)) :
    (place next slots).1.reduceOption = List.range' next (place next slots).2.length := by
  induction slots generalizing next with
  | nil => rfl
  | cons slot slots ih =>
    cases slot with
    | none => simpa [place, List.reduceOption] using ih next
    | some b => simpa [place, List.reduceOption, List.range'_succ] using ih (next + 1)

/-- The buffers are found under their addresses. -/
theorem map_place {next : Nat} {slots : List (Option Buffer)} {get : Nat → Option Buffer}
    (h : ∀ i, get (next + i) = (place next slots).2[i]?) :
    (place next slots).1.map (fun x => x.bind get) = slots := by
  induction slots generalizing next with
  | nil => rfl
  | cons slot slots ih =>
    cases slot with
    | none =>
      have hrest : ∀ i, get (next + i) = (place next slots).2[i]? := h
      simpa [place] using ih hrest
    | some b =>
      have hrest : ∀ i, get (next + 1 + i) = (place (next + 1) slots).2[i]? := by
        intro i
        rw [Nat.add_assoc, Nat.add_comm 1 i]
        simpa [place] using h (i + 1)
      have hfirst : get next = some b := by simpa [place] using h 0
      simpa [place, hfirst] using ih hrest

theorem hands_frame (inputs : List Buffer) (outputs : List (Option Buffer)) (statics : Statics) :
    (frame inputs outputs statics).Hands inputs outputs := by
  have hget : ∀ address, (frame inputs outputs statics).heap.get? address =
      (inputs ++ (place inputs.length outputs).2)[address]? := Heap.get?_map_some _
  refine ⟨?_, ?_, ?_⟩
  · show (List.range inputs.length).map _ = _
    refine List.ext_getElem (by simp) fun i hi _ => ?_
    have hlt : i < inputs.length := by simpa using hi
    rw [List.getElem_map, List.getElem_range, hget, List.getElem?_append_left hlt,
      List.getElem?_eq_getElem hlt, List.getElem_map]
  · refine map_place fun i => ?_
    rw [hget, List.getElem?_append_right (Nat.le_add_right _ _), Nat.add_sub_cancel_left]
  · show (frame inputs outputs statics).heap.live.Perm
      ((List.range inputs.length).dedup ++ (place inputs.length outputs).1.reduceOption)
    have hall : List.range inputs.length ++
        List.range' inputs.length (place inputs.length outputs).2.length =
          List.range (inputs.length + (place inputs.length outputs).2.length) := by
      have happend := @List.range'_append_1 0 inputs.length (place inputs.length outputs).2.length
      rwa [Nat.zero_add, ← List.range_eq_range', ← List.range_eq_range'] at happend
    rw [reduceOption_place, List.nodup_range.dedup, hall]
    refine (List.perm_ext_iff_of_nodup (Heap.nodup_live _) List.nodup_range).2 fun address => ?_
    rw [Heap.mem_live, hget, ← List.length_append, List.mem_range, ne_eq, List.getElem?_eq_none_iff,
      Nat.not_le]

end Loaded

end OpFusion
