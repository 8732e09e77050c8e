/-
  What computations have to keep to, and what a call then keeps.

  A kernel needs no promise. Any other computation, wherever the call at hand has it run, must use and give
  up nothing that it has given up, and nothing that is needed later (`Graph.Lawful`). Then before every
  application what it and later ones read is at hand (`Supplied`), no rule of memory is broken, and the
  call ends with an answer (`Loaded.invoke_of_finish`).
-/
import OpFusion.Proofs.Exec.Handover
import OpFusion.Proofs.Exec.Validation
import OpFusion.Proofs.Graph.Calls

namespace OpFusion

/-! ## What is needed from a position on -/

namespace Graph

variable {g : Graph} {position v : Nat} {a : Application}

/-- What the applications before a position make. -/
def madeBefore (g : Graph) (position : Nat) : List Nat := (g.applications.take position).flatMap (·.outputs)

/-- A variable that there is at a position, and that is read from there on. -/
def Needs (g : Graph) (position v : Nat) : Prop :=
  (v ∈ g.inputs ∨ v ∈ g.madeBefore position) ∧ g.ReadFrom position v

theorem madeBefore_succ (ha : g.applications[position]? = some a) :
    g.madeBefore (position + 1) = g.madeBefore position ++ a.outputs := by
  simp [madeBefore, List.take_add_one, ha]

theorem produced_eq (ha : g.applications[position]? = some a) :
    g.produced = g.madeBefore position ++ a.outputs ++
      (g.applications.drop (position + 1)).flatMap (·.outputs) := by
  rw [← madeBefore_succ ha, madeBefore, ← List.flatMap_append, List.take_append_drop, produced]

/-- The application at a position comes next when those before it have run. -/
theorem WellFormed.next (hg : g.WellFormed) (ha : g.applications[position]? = some a) :
    g.Next (g.madeBefore position) a := by
  have hproduced : ∀ w ∈ g.madeBefore position ++ a.outputs, w ∈ g.produced := fun w hw => by
    rw [produced_eq ha]
    exact List.mem_append_left _ hw
  have hnodup := hg.produced_nodup
  rw [produced_eq ha] at hnodup
  refine ⟨fun v hv => ?_, fun v hv => ⟨hproduced v (by simp [hv]), fun hmade => ?_⟩,
    fun v hv => hproduced v (by simp [hv])⟩
  · rcases hg.ordered.earlier ha hv with hin | hmade | ⟨j, hj, earlier, hearlier, hout⟩
    · exact .inl hin
    · exact absurd hmade (by simp)
    · refine .inr (List.mem_flatMap.2 ⟨earlier, ?_, hout⟩)
      exact List.mem_of_getElem? ((List.getElem?_take_of_lt hj).trans hearlier)
  · exact (List.nodup_append.1 (List.nodup_append.1 hnodup).1).2.2 v hmade v hv rfl

theorem WellFormed.nodup_made (hg : g.WellFormed) (ha : g.applications[position]? = some a) :
    a.outputs.Nodup := by
  have hnodup := hg.produced_nodup
  rw [produced_eq ha] at hnodup
  exact (List.nodup_append.1 (List.nodup_append.1 hnodup).1).2.1

/-- What is needed after an application is made by it, or was needed before. -/
theorem Needs.cases (h : g.Needs (position + 1) v) (ha : g.applications[position]? = some a) :
    v ∈ a.outputs ∨ g.Needs position v := by
  obtain ⟨hv, hread⟩ := h
  rw [madeBefore_succ ha] at hv
  rcases hv with hin | hmade
  · exact .inr ⟨.inl hin, hread.of_succ⟩
  · rcases List.mem_append.1 hmade with hmade | hout
    · exact .inr ⟨.inr hmade, hread.of_succ⟩
    · exact .inl hout

theorem WellFormed.needs_of_mem (hg : g.WellFormed) (ha : g.applications[position]? = some a)
    (hv : v ∈ a.inputs) : g.Needs position v :=
  ⟨(hg.next ha).reads v hv, position, Nat.le_refl _, a, ha, hv⟩

end Graph

/-! ## What statements can change -/

namespace Frame

variable {start f f' f'' : Frame} {s : Slot} {address : Nat} {b : Buffer}

/-- A frame that comes from another one by giving up and writing buffers: no slot has another buffer than
before, and no buffer has another type or shape. -/
structure Shrinks (f f' : Frame) : Prop where
  inputs : f'.inputs = f.inputs
  outputs : f'.outputs.length = f.outputs.length
  temps : f'.temps.length = f.temps.length
  slots : ∀ s, f'.slot? s = f.slot? s ∨ f'.slot? s = some none
  cells : f.heap.cells.length ≤ f'.heap.cells.length
  buffers : ∀ address b', address < f.heap.cells.length → f'.heap.get? address = some b' →
    ∃ b, f.heap.get? address = some b ∧ b'.dtype = b.dtype ∧ b'.dims = b.dims ∧ (b.WellFormed → b'.WellFormed)

namespace Shrinks

theorem of_eq (hheap : f'.heap = f.heap) (hinputs : f'.inputs = f.inputs) (houtputs : f'.outputs = f.outputs)
    (htemps : f'.temps = f.temps) : Shrinks f f' where
  inputs := hinputs
  outputs := congrArg List.length houtputs
  temps := congrArg List.length htemps
  slots s := .inl (by cases s <;> simp [slot?, hinputs, houtputs, htemps])
  cells := Nat.le_of_eq (by rw [hheap])
  buffers address b' _ hb := ⟨b', hheap ▸ hb, rfl, rfl, id⟩

theorem trans (h : Shrinks f f') (h' : Shrinks f' f'') : Shrinks f f'' where
  inputs := h'.inputs.trans h.inputs
  outputs := h'.outputs.trans h.outputs
  temps := h'.temps.trans h.temps
  slots s := by
    rcases h'.slots s with heq | hempty
    · exact (h.slots s).imp heq.trans heq.trans
    · exact .inr hempty
  cells := h.cells.trans h'.cells
  buffers address b'' hlt hb := by
    obtain ⟨b', hb', hdtype', hdims', hwell'⟩ := h'.buffers address b'' (hlt.trans_le h.cells) hb
    obtain ⟨b, hb, hdtype, hdims, hwell⟩ := h.buffers address b' hlt hb'
    exact ⟨b, hb, hdtype'.trans hdtype, hdims'.trans hdims, hwell' ∘ hwell⟩

theorem record (f : Frame) (message : String) : Shrinks f (f.record message) := .of_eq rfl rfl rfl rfl

theorem emptySlot (f : Frame) (index : Nat) : Shrinks f (f.setSlot (.output index) none) where
  inputs := rfl
  outputs := List.length_set
  temps := rfl
  slots s := by
    by_cases hs : s = .output index
    · subst hs
      rcases Nat.lt_or_ge index f.outputs.length with hlt | hge
      · exact .inr (by simp [slot?, setSlot, hlt])
      · exact .inl (by simp [slot?, setSlot, hge])
    · exact .inl (slot?_setSlot_ne hs none)
  cells := Nat.le_refl _
  buffers address b' _ hb := ⟨b', hb, rfl, rfl, id⟩

end Shrinks

theorem release_shrinks (f : Frame) (address : Nat) : (f.release address).Leads (Shrinks f) := by
  unfold release
  split
  · exact .record f _
  · refine .given fun heap hheap => ?_
    refine ⟨rfl, rfl, rfl, fun s => .inl (slot?_heap f heap s), ?_, fun other b' _ hb => ?_⟩
    · obtain ⟨-, -, rfl⟩ := Option.map_eq_some_iff.1 hheap
      simp
    · rw [Heap.get?_release hheap] at hb
      split at hb
      · cases hb
      · exact ⟨b', hb, rfl, rfl, id⟩

theorem releaseSome_shrinks (f : Frame) (x : Option Nat) : (f.releaseSome x).Leads (Shrinks f) := by
  cases x with
  | none => exact .of_eq rfl rfl rfl rfl
  | some address => exact f.release_shrinks address

theorem reserve_shrinks (f : Frame) (tag rank : Nat) (dims : Option (List Int64)) :
    Shrinks f (f.reserve tag rank dims).2 := by
  unfold reserve allocateWith
  cases shape tag rank dims with
  | error fault => exact .record f _
  | ok accepted =>
    refine ⟨rfl, rfl, rfl, fun s => .inl (slot?_heap f _ s), by simp [Heap.allocate], fun address b' hlt hb => ?_⟩
    rw [Heap.get?_allocate, if_neg (Nat.ne_of_lt hlt)] at hb
    exact ⟨b', hb, rfl, rfl, id⟩

theorem write_shrinks (f : Frame) (index offset : Nat) (bytes : List UInt8) :
    (f.write index offset bytes).Leads (Shrinks f) := by
  refine .given fun ⟨target, b⟩ hresult => ?_
  dsimp only
  split
  · next hle =>
    refine .given fun heap hheap => ?_
    refine ⟨rfl, rfl, rfl, fun s => .inl (slot?_heap f heap s), ?_, fun address b' _ hb => ?_⟩
    · obtain ⟨-, -, rfl⟩ := Option.map_eq_some_iff.1 hheap
      simp
    · rw [Heap.get?_set hheap] at hb
      split at hb
      · next htarget =>
        cases hb
        exact ⟨b, htarget ▸ result?_eq_some hresult, rfl, rfl, fun hb => hb.writeBytes hle⟩
      · exact ⟨b', hb, rfl, rfl, id⟩
  · trivial

end Frame

/-- **A statement only gives up and writes buffers.** -/
theorem Statement.run_shrinks (statement : Statement) (c : Context) (f : Frame) :
    (statement.run c f).Leads (Frame.Shrinks f) := by
  cases statement with
  | fail message => exact Frame.Shrinks.of_eq rfl rfl rfl rfl
  | note bytes => exact Frame.Shrinks.record f _
  | noteNothing => exact Frame.Shrinks.record f _
  | status value => exact Frame.Shrinks.of_eq rfl rfl rfl rfl
  | releaseNothing => exact Frame.Shrinks.of_eq rfl rfl rfl rfl
  | releaseInput index => exact .given fun x _ => f.releaseSome_shrinks x
  | dropOutput index =>
    refine .given fun x _ => (f.releaseSome_shrinks x).andThen (fun _ h => h) fun f' h => ?_
    exact h.trans (.emptySlot f' index)
  | allocate tag rank dims =>
    refine .given fun passed _ => ?_
    have h := f.reserve_shrinks (halfWord tag) (halfWord rank) passed
    generalize f.reserve (halfWord tag) (halfWord rank) passed = reserved at h ⊢
    exact (reserved.2.releaseSome_shrinks reserved.1).imp fun _ h' => h.trans h'
  | set output position value => exact f.write_shrinks _ _ _
  | count symbol =>
    refine (f.write_shrinks _ _ _).andThen (fun _ h => h) fun f' h => ?_
    exact h.trans (.of_eq rfl rfl rfl rfl)

theorem Statement.runAll_shrinks (statements : List Statement) (c : Context) (f : Frame) :
    (runAll c statements f).Leads (Frame.Shrinks f) := by
  refine Flow.Leads.foldl (.of_eq rfl rfl rfl rfl : Frame.Shrinks f f) fun statement _ f' hf' => ?_
  exact (statement.run_shrinks c f').imp fun _ hf'' => hf'.trans hf''

/-! ## What a call keeps -/

namespace Frame

variable {start f f' f'' : Frame} {s : Slot} {c : Context} {outputs : List OutputPlan}

/-- The buffers in the slots are live and apart, and there are as many slots as at the start. -/
structure Settled (start f : Frame) : Prop where
  separate : f.Separate
  inputs : f.inputs = start.inputs
  outputs : f.outputs.length = start.outputs.length
  temps : f.temps.length = start.temps.length

/-- No slot holds the address of a buffer that has been given up. -/
def Whole (f : Frame) : Prop := ∀ s address, f.slot? s = some (some address) → f.heap.get? address ≠ none

namespace Settled

theorem whole (h : Settled start f) : f.Whole := by
  intro s address hs
  obtain ⟨b, hb, -⟩ := h.separate.live s address hs
  simp [hb]

theorem same (h : Settled start f) (hsame : Same f f') : Settled start f' where
  separate := by
    refine ⟨fun s address hs => ?_, fun s t address hinput hs ht => ?_⟩
    · rw [hsame.buffers]
      exact h.separate.live s address (hsame.slot? s ▸ hs)
    · exact h.separate.apart s t address hinput (hsame.slot? s ▸ hs) (hsame.slot? t ▸ ht)
  inputs := hsame.inputs.trans h.inputs
  outputs := (congrArg List.length hsame.outputs).trans h.outputs
  temps := (congrArg List.length hsame.temps).trans h.temps

theorem keeps (h : Settled start f) (hkeeps : Keeps s f f') (hf' : f'.Separate) : Settled start f' :=
  ⟨hf', hkeeps.inputs.trans h.inputs, hkeeps.outputs.trans h.outputs, hkeeps.temps.trans h.temps⟩

theorem lined (h : Settled start f) (hlined : Lined c outputs f f') : Settled start f' :=
  ⟨hlined.separate, hlined.inputs.trans h.inputs, hlined.outputSlots.trans h.outputs,
    hlined.tempSlots.trans h.temps⟩

theorem refuses (h : Settled start f) (hrefuses : Refuses f f') : Settled start f' :=
  ⟨hrefuses.separate, hrefuses.inputs.trans h.inputs, hrefuses.outputs.trans h.outputs,
    hrefuses.temps.trans h.temps⟩

/-- What is left after buffers have been given up and written is in order if nothing dangles. -/
theorem shrinks (h : Settled start f) (hshrinks : Shrinks f f') (hwhole : f'.Whole) : Settled start f' where
  separate := by
    have hslot : ∀ {s address}, f'.slot? s = some (some address) → f.slot? s = some (some address) := by
      intro s address hs
      rcases hshrinks.slots s with heq | hempty
      · rwa [heq] at hs
      · cases hempty.symm.trans hs
    refine ⟨fun s address hs => ?_, fun s t address hinput hs ht => ?_⟩
    · obtain ⟨b, hb, hwell⟩ := h.separate.live s address (hslot hs)
      obtain ⟨b', hb'⟩ := Option.ne_none_iff_exists'.1 (hwhole s address hs)
      obtain ⟨b₀, hb₀, -, -, hkept⟩ := hshrinks.buffers address b' (Heap.lt_of_get? hb) hb'
      cases hb₀.symm.trans hb
      exact ⟨b', hb', hkept hwell⟩
    · exact h.separate.apart s t address hinput (hslot hs) (hslot ht)
  inputs := hshrinks.inputs.trans h.inputs
  outputs := hshrinks.outputs.trans h.outputs
  temps := hshrinks.temps.trans h.temps

end Settled

end Frame

section

variable {g : Graph} {start f f' : Frame} {position v : Nat} {a : Application} {operand : Nat → Tensor}
  {c : Context} {plan : Plan} {outputs : List OutputPlan}

theorem Shaped.settled (h : Shaped g start) (hf : Frame.Settled start f) : Shaped g f :=
  ⟨(congrArg List.length hf.inputs).trans h.inputs, hf.outputs.trans h.outputs, hf.temps.trans h.temps⟩

theorem AtHand.shrinks (h : AtHand g f v) (hf : f.Separate) (hshrinks : Frame.Shrinks f f')
    (hwhole : f'.Whole) (hslot : f'.slot? (g.slot v) = f.slot? (g.slot v)) : AtHand g f' v := by
  obtain ⟨b, hb, hdesc⟩ := h
  obtain ⟨address, haddress, hget, -⟩ := hf.exists_address hb
  obtain ⟨b', hb'⟩ := Option.ne_none_iff_exists'.1 (hwhole _ address (hslot.trans haddress))
  obtain ⟨b₀, hb₀, hdtype, hdims, -⟩ := hshrinks.buffers address b' (Heap.lt_of_get? hget) hb'
  cases hb₀.symm.trans hget
  refine ⟨b', by simp [Frame.buffer?, hslot, haddress, hb'], ?_⟩
  rw [← hdesc, Loaded.descOf, Loaded.descOf, Buffer.rank, Buffer.rank, hdtype, hdims]

theorem AtHand.lined (h : AtHand g f v) (hlined : Frame.Lined c outputs f f')
    (hother : ∀ o ∈ outputs, o.slot ≠ g.slot v) : AtHand g f' v := by
  obtain ⟨b, hb, hdesc⟩ := h
  refine ⟨b, ?_, hdesc⟩
  rw [Frame.buffer?, hlined.slots _ hother]
  rw [Frame.buffer?] at hb
  cases hslot : f.slot? (g.slot v) with
  | none => simp [hslot] at hb
  | some x =>
    cases x with
    | none => simp [hslot] at hb
    | some address =>
      rw [hslot] at hb
      exact (hlined.buffers _ hother address hslot).trans hb

theorem Fed.lined (h : Fed g a operand f) (hlined : Frame.Lined c outputs f f')
    (hother : ∀ v ∈ a.inputs, ∀ o ∈ outputs, o.slot ≠ g.slot v) : Fed g a operand f' := by
  intro i v hv
  obtain ⟨address, b, hoperand, hslot, hget, hrest⟩ := h i v hv
  have hne := hother v (List.mem_of_getElem? hv)
  exact ⟨address, b, hlined.operands ▸ hoperand, (hlined.slots _ hne).trans hslot,
    (hlined.buffers _ hne address hslot).trans hget, hrest⟩

/-! ## What a computation promises -/

/-- The call comes to the application at a position with this frame. -/
def Code.Reaches (code : Code) (start : Frame) (position : Nat) (f : Frame) : Prop :=
  Frame.runPlans (code.plans.take position) start = .next f

/-- The call comes to this frame when the operands of the application at a position have been taken and a
number of its outputs put in place. -/
def Code.Prepares (code : Code) (start : Frame) (position count : Nat) (f : Frame) : Prop :=
  ∃ plan before operands, code.plans[position]? = some plan ∧ code.Reaches start position before ∧
    plan.inputs.mapM before.slot? = some operands ∧
    Frame.prepareAll plan.context 0 (plan.outputs.take count) { before with operands, results := [] } = .next f

/-- The computation of an application does not break a rule of memory, gives up nothing that is needed
later, and leaves no slot with a buffer that has been given up. Code that is free to do anything has to leave
what is needed at hand and the slots apart. -/
def Body.Careful (g : Graph) (start : Frame) (position : Nat) (c : Context) (f : Frame) : Body → Prop
  | .steps statements => (Statement.runAll c statements f).Ends
      (fun f' => f'.Whole ∧ ∀ v, g.Needs (position + 1) v → f'.slot? (g.slot v) = f.slot? (g.slot v)) Frame.Whole
  | body => (Frame.runBody c body f).Ends
      (fun f' => Frame.Settled start f' ∧ ∀ v, g.Needs (position + 1) v → AtHand g f' v) (Frame.Settled start)

/-- An application of a library kind, or one whose extents have values and whose computation is careful
wherever the call at hand comes to it. -/
inductive Graph.Lawful (g : Graph) (code : Code) (start : Frame) (position : Nat) (a : Application) : Prop
  | kernel (k : Kernel) : a.kind = k.kind → g.Lawful code start position a
  | other : (∀ plan, code.plans[position]? = some plan →
      (∀ count o f, plan.outputs[count]? = some o → code.Prepares start position count f →
        ∀ e ∈ o.extents, e.Within plan.context ∨ ∃ x, f.extent? e = some x) ∧
      ∀ f, code.Prepares start position plan.outputs.length f → Frame.Settled start f →
        plan.body.Careful g start position plan.context f) → g.Lawful code start position a

/-- What there is before the application at a position. -/
structure Supplied (g : Graph) (start : Frame) (position : Nat) (f : Frame) : Prop where
  settled : Frame.Settled start f
  atHand : ∀ v, g.Needs position v → AtHand g f v

theorem Body.Careful.runBody_ends {body : Body} (h : body.Careful g start position c f)
    (hf : Supplied g start (position + 1) f) :
    (Frame.runBody c body f).Ends (Supplied g start (position + 1)) (Frame.Settled start) := by
  cases body with
  | steps statements =>
    rw [Body.Careful] at h
    rw [Frame.runBody]
    refine (h.leads (Statement.runAll_shrinks statements c f)).imp ?_ ?_
    · rintro f' ⟨⟨hwhole, hslots⟩, hshrinks⟩
      exact ⟨hf.settled.shrinks hshrinks hwhole, fun v hv =>
        (hf.atHand v hv).shrinks hf.settled.separate hshrinks hwhole (hslots v hv)⟩
    · rintro f' ⟨hwhole, hshrinks⟩
      exact hf.settled.shrinks hshrinks hwhole
  | kernel k =>
    simp only [Body.Careful] at h
    exact h.mono fun f' hf' => ⟨hf'.1, hf'.2⟩
  | code text =>
    simp only [Body.Careful] at h
    -- what the code does is not looked into
    generalize Frame.runBody c (.code text) f = flow at h ⊢
    exact h.mono fun f' hf' => ⟨hf'.1, hf'.2⟩

/-! ## One application -/

theorem Supplied.fed (h : Supplied g start position f) (hg : g.WellFormed)
    (ha : g.applications[position]? = some a) :
    ∃ operand operands, (a.inputs.map g.slot).mapM f.slot? = some operands ∧
      Fed g a operand { f with operands, results := [] } :=
  fed_of_atHand h.settled.separate fun v hv => h.atHand v (hg.needs_of_mem ha hv)

theorem Supplied.same (h : Supplied g start position f) (hsame : Frame.Same f f') :
    Supplied g start position f' :=
  ⟨h.settled.same hsame, fun v hv => (h.atHand v hv).same hsame⟩

/-- The outputs of an application are in other slots than what there is already. -/
theorem Assembly.Places.slot_ne (hplan : Places g position a plan) (hg : g.WellFormed)
    (ha : g.applications[position]? = some a) (hv : v ∈ g.inputs ∨ v ∈ g.madeBefore position) :
    ∀ o ∈ plan.outputs, o.slot ≠ g.slot v := by
  intro o ho heq
  obtain ⟨i, hi⟩ := List.mem_iff_getElem?.1 ho
  obtain ⟨w, hw, hplans⟩ := hplan.variable_at hi
  exact (hg.next ha).slot_ne hg (List.mem_of_getElem? hw) hv (heq.symm.trans hplans.slot)

/-- The outputs of an application whose operands have been taken can be put in place one after another. -/
theorem Fed.orderly (h : Fed g a operand f) (hf : Frame.Settled start f) (hshape : Shaped g start)
    (hg : g.WellFormed) (ha : g.applications[position]? = some a) (hplan : Assembly.Places g position a plan)
    (hresults : f.results = [])
    (hextents : ∀ count o before, plan.outputs[count]? = some o →
      Frame.prepareAll plan.context 0 (plan.outputs.take count) f = .next before →
      ∀ e ∈ o.extents, e.Within plan.context ∨ ∃ x, before.extent? e = some x) :
    Frame.Orderly plan.context plan.outputs f := by
  have hvar : ∀ o ∈ plan.outputs, ∃ v ∈ a.outputs, o.slot = g.slot v := by
    intro o ho
    obtain ⟨i, hi⟩ := List.mem_iff_getElem?.1 ho
    obtain ⟨v, hv, hplans⟩ := hplan.variable_at hi
    exact ⟨v, List.mem_of_getElem? hv, hplans.slot⟩
  have hproduced : ∀ v ∈ a.outputs, v ∈ g.produced := fun v hv => ((hg.next ha).makes v hv).1
  refine .of_lined hf.separate hresults ?_ ?_ ?_ fun count o before ho hrun hlined => ?_
  · rw [hplan.map_slot]
    exact (hg.nodup_made ha).map_on fun v hv w hw =>
      hg.slot_inj (.inr (hproduced v hv)) (.inr (hproduced w hw))
  · intro o ho
    obtain ⟨v, hv, hslot⟩ := hvar o ho
    rw [hslot]
    exact hg.slot_ne_input (hproduced v hv)
  · intro o ho
    obtain ⟨v, hv, hslot⟩ := hvar o ho
    rw [hslot]
    exact (hshape.settled hf).exists_slot (hg.hasSlot (.inr (hproduced v hv)))
  · -- the operands are where they were, so that extents that refer to them can be read
    have hfed : Fed g a operand before := h.lined hlined fun v hv p hp =>
      hplan.slot_ne hg ha (hg.needs_of_mem ha hv).1 p (List.mem_of_mem_take hp)
    have heach : ∀ e ∈ o.extents, before.extent? e = some ((before.extent? e).getD 0) := by
      intro e he
      obtain ⟨x, hx⟩ : ∃ x, before.extent? e = some x := by
        rcases hextents count o before ho hrun e he with hwithin | hvalue
        · rw [hplan.context] at hwithin
          exact hfed.extent? hwithin
        · exact hvalue
      rw [hx, Option.getD_some]
    obtain ⟨v, -, hplans⟩ := hplan.variable_at ho
    exact ⟨_, Outcome.mapM_eq_some_map heach, by rw [List.length_map, hplans.rank]⟩

/-- When the outputs of an application are in place, what is needed after it is at hand. -/
theorem Supplied.lined (h : Supplied g start position f) (hg : g.WellFormed)
    (ha : g.applications[position]? = some a) (hplan : Assembly.Places g position a plan)
    (hlined : Frame.Lined plan.context plan.outputs f f') : Supplied g start (position + 1) f' := by
  refine ⟨h.settled.lined hlined, fun v hv => ?_⟩
  rcases hv.cases ha with hout | hold
  · obtain ⟨i, hi⟩ := List.mem_iff_getElem?.1 hout
    obtain ⟨o, ho, hplans⟩ := hplan.output_at hi
    obtain ⟨-, dims, address, b, -, -, -, haccepted, -⟩ := hlined.stands i o ho
    obtain ⟨hdtype, hrank, -, -⟩ := Frame.fits_iff.1 haccepted.fits
    refine ⟨b, by simp [Frame.buffer?, ← hplans.slot, haccepted.slot, haccepted.buffer], ?_⟩
    rw [← hplans.desc, Loaded.descOf, hdtype, hrank]
  · exact (h.atHand v hold).lined hlined (hplan.slot_ne hg ha hold.1)

end

theorem Kernel.within_resultExtents (k : Kernel) {c : Context} {e : Extent} (he : e ∈ k.resultExtents c) :
    e.Within c := by
  have hlike : ∀ e ∈ Extent.like 0 (c.inputRank 0), e.Within c := by
    intro e he
    obtain ⟨axis, haxis, rfl⟩ := List.mem_map.1 he
    exact List.mem_range.1 haxis
  cases k with
  | reduceSum d => cases he
  | scale d => exact hlike e he
  | binary op d => exact hlike e he
  | unary op d => exact hlike e he

section

variable {g : Graph} {code : Code} {start f f' : Frame} {position line : Nat} {a : Application} {plan : Plan}
  {program : Source.Program} {operands : List (Option Nat)}

/-- The extents of a lawful application have values, or refer to its operands. -/
theorem Graph.Lawful.extents (h : g.Lawful code start position a) (hplan : Assembly.Places g position a plan)
    {body : Body} (hcode : code.plans[position]? = some { plan with body })
    (hreaches : code.Reaches start position f) (htaken : plan.inputs.mapM f.slot? = some operands)
    (count : Nat) (o : OutputPlan) (before : Frame) (ho : plan.outputs[count]? = some o)
    (hrun : Frame.prepareAll plan.context 0 (plan.outputs.take count) { f with operands, results := [] } =
      .next before) :
    ∀ e ∈ o.extents, e.Within plan.context ∨ ∃ x, before.extent? e = some x := by
  cases h with
  | kernel k hk =>
    obtain ⟨-, -, v, -, -, houtputs⟩ := hplan.kernel hk
    have hmem := List.mem_of_getElem? ho
    rw [houtputs] at hmem
    cases List.mem_singleton.1 hmem
    exact fun e he => .inl (k.within_resultExtents he)
  | other hother => exact (hother _ hcode).1 count o before ho ⟨_, f, operands, hcode, hreaches, htaken, hrun⟩

/-- The operands of a lawful application are taken, and its outputs can be put in place. -/
theorem Supplied.orderly (h : Supplied g start position f) (hg : g.WellFormed) (hshape : Shaped g start)
    (ha : g.applications[position]? = some a) (hplan : Assembly.Places g position a plan) {body : Body}
    (hcode : code.plans[position]? = some { plan with body }) (hlaw : g.Lawful code start position a)
    (hreaches : code.Reaches start position f) :
    ∃ operand operands, plan.inputs.mapM f.slot? = some operands ∧
      Fed g a operand { f with operands, results := [] } ∧
      Frame.Orderly plan.context plan.outputs { f with operands, results := [] } := by
  obtain ⟨operand, operands, htaken, hfed⟩ := h.fed hg ha
  rw [← hplan.inputs] at htaken
  exact ⟨operand, operands, htaken, hfed, hfed.orderly (h.settled.same ⟨fun _ => rfl, rfl, rfl, rfl⟩) hshape hg
    ha hplan rfl (hlaw.extents hplan hcode hreaches htaken)⟩

/-- A kernel writes to its result and leaves the rest alone. -/
theorem Supplied.kernel_ends (h : Supplied g start position f) (hg : g.WellFormed) (hshape : Shaped g start)
    (ha : g.applications[position]? = some a) (hplan : Assembly.Places g position a plan) {k : Kernel}
    (hk : a.kind = k.kind) {operand : Nat → Tensor} (hfed : Fed g a operand f) (hresults : f.results = []) :
    ((Frame.prepareAll plan.context 0 plan.outputs f).andThen (Frame.runBody plan.context plan.body)).Ends
      (Supplied g start (position + 1)) (Frame.Settled start) := by
  obtain ⟨f₁, v, hv, hdesc, hrun, hpoised, hkeeps⟩ := hfed.poised h.settled.separate hg (hg.next ha) hplan hk
    (fun s hs => (hshape.settled h.settled).exists_slot hs) hresults
  rw [hrun]
  refine (hpoised.run_keeps plan.context).imp ?_ ?_
  · rintro f' ⟨hf', hkeeps', b, hb, hdtype, hdims⟩
    refine ⟨h.settled.keeps (hkeeps.trans hkeeps') hf', fun w hw => ?_⟩
    rcases hw.cases ha with hout | hold
    · rw [hv] at hout
      cases List.mem_singleton.1 hout
      refine ⟨b, hb, ?_⟩
      rw [hdesc, Loaded.descOf, Buffer.rank, hdtype, hdims]
    · exact (h.atHand w hold).keeps (hkeeps.trans hkeeps') ((hg.next ha).slot_ne hg (by simp [hv]) hold.1)
  · rintro f'' ⟨f', hf', hkeeps', hsame⟩
    exact (h.settled.keeps (hkeeps.trans hkeeps') hf').same hsame

/-- **An application that keeps to its promise leaves what is needed later at hand.** -/
theorem Supplied.runPlan_ends (h : Supplied g start position f) (hg : g.WellFormed) (hshape : Shaped g start)
    (ha : g.applications[position]? = some a) (hplan : Assembly.Places g position a plan)
    (hcode : code.plans[position]? = some { plan with body := Module.placedBody program line plan })
    (hlaw : g.Lawful code start position a) (hreaches : code.Reaches start position f) :
    (Frame.runPlan { plan with body := Module.placedBody program line plan } f).Ends
      (Supplied g start (position + 1)) (Frame.Settled start) := by
  obtain ⟨operand, operands, htaken, hfed, horderly⟩ := h.orderly hg hshape ha hplan hcode hlaw hreaches
  have h₀ : Supplied g start position { f with operands, results := [] } := h.same ⟨fun _ => rfl, rfl, rfl, rfl⟩
  simp only [Frame.runPlan, htaken, Flow.given]
  cases hlaw with
  | kernel k hk =>
    have hbody : Module.placedBody program line plan = plan.body := by
      rw [Module.placedBody, (hplan.kernel hk).2.1]
    rw [hbody]
    exact h₀.kernel_ends hg hshape ha hplan hk hfed rfl
  | other hother =>
    rcases horderly.prepareAll_cases with ⟨f₁, hrun, hlined⟩ | ⟨f₁, _, _, _, _, hrun, hrefuses, -⟩
    · have h₁ := h₀.lined hg ha hplan hlined
      rw [hrun, Flow.andThen]
      refine ((hother _ hcode).2 f₁ ⟨_, f, operands, hcode, hreaches, htaken, ?_⟩ h₁.settled).runBody_ends h₁
      rwa [List.take_length]
    · rw [hrun, Flow.andThen]
      exact h₀.settled.refuses hrefuses

end

/-! ## Calls -/

theorem Frame.runPlans_append (first rest : List Plan) (f : Frame) :
    runPlans (first ++ rest) f = (runPlans first f).andThen (runPlans rest) :=
  Flow.chain_append runPlan first rest f

/-- The plan that a module runs for an application. -/
theorem Module.exists_plan {g : Graph} {m : Module} (hm : Assembly.assemble g = .ok m) {position : Nat}
    {a : Application} (ha : g.applications[position]? = some a) :
    ∃ plan line, Assembly.Places g position a plan ∧
      m.code.plans[position]? = some { plan with body := Module.placedBody m.program line plan } := by
  obtain ⟨plan, hplan, hplaces⟩ := (Assembly.assemble_planned hm).places_at ha
  rw [Nat.zero_add] at hplaces
  obtain ⟨line, hcode⟩ := Module.getElem?_placedPlans m.program _ hplan
  exact ⟨plan, line, hplaces, hcode⟩

theorem Module.length_plans {g : Graph} {m : Module} (hm : Assembly.assemble g = .ok m) :
    m.code.plans.length = g.applications.length := by
  rw [← (Assembly.assemble_planned hm).length_eq]
  exact Module.length_placedPlans _ _ _

section

variable {g : Graph} {m : Module} (hg : g.WellFormed) (hm : Assembly.assemble g = .ok m) {start : Frame}
  (hshape : Shaped g start) (hstart : Supplied g start 0 start)
  (hlaw : ∀ (i : Nat) (a : Application), g.applications[i]? = some a → g.Lawful m.code start i a)

include hg hm hshape hstart hlaw

/-- **A call comes to every application with what it needs**, or has left in order. -/
theorem Supplied.runPlans_ends {n : Nat} (hn : n ≤ g.applications.length) :
    (Frame.runPlans (m.code.plans.take n) start).Ends (Supplied g start n) (Frame.Settled start) := by
  induction n with
  | zero => exact hstart
  | succ n ih =>
    have ha := List.getElem?_eq_getElem (Nat.lt_of_succ_le hn)
    obtain ⟨plan, line, hplan, hcode⟩ := Module.exists_plan hm ha
    have htake : m.code.plans.take (n + 1) =
        m.code.plans.take n ++ [{ plan with body := Module.placedBody m.program line plan }] := by
      rw [List.take_add_one, hcode]
      rfl
    rw [htake, Frame.runPlans_append]
    have hends := ih (Nat.le_of_succ_le hn)
    cases hflow : Frame.runPlans (m.code.plans.take n) start with
    | next f =>
      rw [hflow] at hends
      exact Supplied.runPlan_ends hends hg hshape ha hplan hcode (hlaw n _ ha) hflow
    | leave f => rwa [hflow] at hends
    | broken => rwa [hflow] at hends

theorem Frame.Settled.runPlans_ends :
    (Frame.runPlans m.code.plans start).Ends (Frame.Settled start) (Frame.Settled start) := by
  have hends := Supplied.runPlans_ends hg hm hshape hstart hlaw (Nat.le_refl _)
  rw [← Module.length_plans hm, List.take_length] at hends
  exact hends.mono fun f hf => hf.settled

end

namespace Loaded

variable {g : Graph} {m : Module} {l : Loaded} {inputs : List Buffer} {outputs : List (Option Buffer)}
  {statics : Statics}

/-- The frame in which the applications of a call start. -/
def opening (m : Module) (inputs : List Buffer) (outputs : List (Option Buffer)) (statics : Statics) : Frame :=
  (frame inputs outputs statics).opened m.code

end Loaded

end OpFusion
