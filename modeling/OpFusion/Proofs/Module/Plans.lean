/-
  What a module that is assembled runs: one plan for each application, in order.

  `Progress.add_eq_ok` says all that one application adds. From it, by induction over the applications,
  the plans of an assembled module are those of its applications (`assemble_planned`): an application is
  accepted by its kind, reads the slots of its inputs and writes the slots of its outputs. Plans of
  kernels are run as they are (`placedPlans_eq`).
-/
import OpFusion.Exec.Entry
import OpFusion.Proofs.Outcome

namespace OpFusion

namespace Assembly

variable {g : Graph} {a : Application} {apps : List Application} {p p' : Progress}

theorem ask_eq_ok {α : Type} {c : Context} {answer : Except Refusal α} {x : α} :
    ask a c answer = .ok x ↔ answer = .ok x := Outcome.mapError_eq_ok

theorem planOutput_eq_ok {c : Context} {index var : Nat} {o : OutputPlan}
    (h : planOutput g a c index var = .ok o) :
    ∃ extents, a.kind.extents c index = .ok extents ∧ extents.length = (g.binding var).desc.rank ∧
      o = ⟨g.slot var, (g.binding var).desc, extents⟩ := by
  obtain ⟨extents, hextents, h⟩ := Outcome.bind_eq_ok.1 h
  by_cases hlength : extents.length = (g.binding var).desc.rank
  · rw [if_pos hlength] at h
    cases h
    exact ⟨extents, hextents, hlength, rfl⟩
  · rw [if_neg hlength] at h
    cases h

/-- All that an application adds to what has been collected. -/
theorem Progress.add_eq_ok (h : p.add g a = .ok p') :
    let c := context g p.signatures.length a
    a.kind.check c = .ok () ∧
      ∃ kindBlocks symbols blocks appBlocks symbols' outputs body,
        Support.insertAll p.kindBlocks p.symbols (owner a c) a.kind.kindBlocks =
          .ok (kindBlocks, symbols) ∧
        a.kind.appBlocks c = .ok blocks ∧
        Support.insertAll p.appBlocks symbols (owner a c) blocks = .ok (appBlocks, symbols') ∧
        planOutputs g a c 0 a.outputs = .ok outputs ∧
        a.kind.body c = .ok body ∧
        p' = {
          symbols := symbols', kindBlocks, appBlocks
          link := p.link.merge a.kind.link
          reentrant := p.reentrant && a.kind.reentrant
          signatures := p.signatures ++ [signature g a c]
          plans := p.plans ++ [⟨c, a.inputs.map g.slot, outputs, body⟩] } := by
  unfold Progress.add at h
  obtain ⟨_, hcheck, h⟩ := Outcome.bind_eq_ok.1 h
  obtain ⟨⟨kindBlocks, symbols⟩, hkind, h⟩ := Outcome.bind_eq_ok.1 h
  obtain ⟨blocks, hblocks, h⟩ := Outcome.bind_eq_ok.1 h
  obtain ⟨⟨appBlocks, symbols'⟩, happ, h⟩ := Outcome.bind_eq_ok.1 h
  obtain ⟨outputs, houtputs, h⟩ := Outcome.bind_eq_ok.1 h
  obtain ⟨body, hbody, h⟩ := Outcome.bind_eq_ok.1 h
  cases h
  exact ⟨ask_eq_ok.1 hcheck, kindBlocks, symbols, blocks, appBlocks, symbols', outputs, body,
    Outcome.mapError_eq_ok.1 hkind, ask_eq_ok.1 hblocks, Outcome.mapError_eq_ok.1 happ,
    ask_eq_ok.1 houtputs, ask_eq_ok.1 hbody, rfl⟩

/-! ## Plans of applications -/

/-- The plan of an application that its kind accepts, at a position. -/
structure Places (g : Graph) (position : Nat) (a : Application) (plan : Plan) : Prop where
  accepted : a.kind.check plan.context = .ok ()
  context : plan.context = context g position a
  inputs : plan.inputs = a.inputs.map g.slot
  outputs : planOutputs g a plan.context 0 a.outputs = .ok plan.outputs
  body : a.kind.body plan.context = .ok plan.body

/-- The plans of applications that stand at a position and after it. -/
inductive Planned (g : Graph) : Nat → List Application → List Plan → Prop
  | nil {position : Nat} : Planned g position [] []
  | cons {position : Nat} {a : Application} {plan : Plan} {apps : List Application}
      {plans : List Plan} : Places g position a plan → Planned g (position + 1) apps plans →
      Planned g position (a :: apps) (plan :: plans)

theorem Planned.exists_places {position : Nat} {plans : List Plan} (h : Planned g position apps plans) :
    ∀ plan ∈ plans, ∃ i, ∃ a ∈ apps, Places g i a plan := by
  induction h with
  | nil => simp
  | @cons position a plan apps plans hplan _ ih =>
    intro p hp
    rcases List.mem_cons.1 hp with rfl | hp
    · exact ⟨position, a, by simp, hplan⟩
    · obtain ⟨i, b, hb, hplaces⟩ := ih p hp
      exact ⟨i, b, by simp [hb], hplaces⟩

theorem Planned.length_eq {position : Nat} {plans : List Plan} (h : Planned g position apps plans) :
    plans.length = apps.length := by
  induction h with
  | nil => rfl
  | cons _ _ ih => exact congrArg (· + 1) ih

/-- The plan of the application with a given number. -/
theorem Planned.places_at {position i : Nat} {plans : List Plan} (h : Planned g position apps plans)
    (ha : apps[i]? = some a) : ∃ plan, plans[i]? = some plan ∧ Places g (position + i) a plan := by
  induction h generalizing i with
  | nil => cases ha
  | @cons position first plan apps plans hplan _ ih =>
    cases i with
    | zero =>
      obtain rfl : first = a := Option.some.inj ha
      exact ⟨plan, rfl, hplan⟩
    | succ i =>
      obtain ⟨p, hp, hplaces⟩ := ih ha
      exact ⟨p, hp, by rwa [Nat.add_right_comm] at hplaces⟩

theorem length_planOutputs {c : Context} {index : Nat} {vars : List Nat} {outputs : List OutputPlan}
    (h : planOutputs g a c index vars = .ok outputs) : outputs.length = vars.length := by
  induction vars generalizing index outputs with
  | nil =>
    cases h
    rfl
  | cons v vars ih =>
    obtain ⟨o, -, h⟩ := Outcome.bind_eq_ok.1 h
    obtain ⟨rest, hrest, h⟩ := Outcome.bind_eq_ok.1 h
    cases h
    exact congrArg (· + 1) (ih hrest)

theorem planOutputs_at {c : Context} {index i v : Nat} {vars : List Nat} {outputs : List OutputPlan}
    (h : planOutputs g a c index vars = .ok outputs) (hv : vars[i]? = some v) :
    ∃ o, outputs[i]? = some o ∧ planOutput g a c (index + i) v = .ok o := by
  induction vars generalizing index outputs i with
  | nil => cases hv
  | cons w vars ih =>
    obtain ⟨o, ho, h⟩ := Outcome.bind_eq_ok.1 h
    obtain ⟨rest, hrest, h⟩ := Outcome.bind_eq_ok.1 h
    cases h
    cases i with
    | zero =>
      obtain rfl : w = v := Option.some.inj hv
      exact ⟨o, rfl, ho⟩
    | succ i =>
      obtain ⟨o', ho', hplan⟩ := ih hrest hv
      exact ⟨o', ho', by rwa [Nat.add_right_comm] at hplan⟩

/-- The plan of an output: the slot and the description of its variable, and the extents that the kind gives
it, one for each axis. -/
structure PlansFor (g : Graph) (a : Application) (c : Context) (i v : Nat) (o : OutputPlan) : Prop where
  slot : o.slot = g.slot v
  desc : o.desc = (g.binding v).desc
  extents : a.kind.extents c i = .ok o.extents
  rank : o.extents.length = o.desc.rank

namespace Places

variable {position : Nat} {plan : Plan}

/-- The output of a variable. -/
theorem output_at (h : Places g position a plan) {i v : Nat} (hv : a.outputs[i]? = some v) :
    ∃ o, plan.outputs[i]? = some o ∧ PlansFor g a plan.context i v o := by
  obtain ⟨o, ho, hplan⟩ := planOutputs_at h.outputs hv
  rw [Nat.zero_add] at hplan
  obtain ⟨extents, hextents, hlength, rfl⟩ := planOutput_eq_ok hplan
  exact ⟨_, ho, rfl, rfl, hextents, hlength⟩

/-- The variable of an output. -/
theorem variable_at (h : Places g position a plan) {i : Nat} {o : OutputPlan} (ho : plan.outputs[i]? = some o) :
    ∃ v, a.outputs[i]? = some v ∧ PlansFor g a plan.context i v o := by
  have hi : i < a.outputs.length := length_planOutputs h.outputs ▸ (List.getElem?_eq_some_iff.1 ho).1
  have hv := List.getElem?_eq_getElem hi
  obtain ⟨o', ho', hplans⟩ := h.output_at hv
  cases ho.symm.trans ho'
  exact ⟨_, hv, hplans⟩

theorem map_slot (h : Places g position a plan) : plan.outputs.map (·.slot) = a.outputs.map g.slot := by
  refine List.ext_getElem? fun i => ?_
  rw [List.getElem?_map, List.getElem?_map]
  cases hv : a.outputs[i]? with
  | some v =>
    obtain ⟨o, ho, hplans⟩ := h.output_at hv
    rw [ho, Option.map_some, Option.map_some, hplans.slot]
  | none =>
    have hi : plan.outputs.length ≤ i := length_planOutputs h.outputs ▸ List.getElem?_eq_none_iff.1 hv
    rw [List.getElem?_eq_none hi, Option.map_none, Option.map_none]

end Places

theorem Progress.add_places (h : p.add g a = .ok p') :
    ∃ plan, Places g p.signatures.length a plan ∧ p'.plans = p.plans ++ [plan] ∧
      p'.signatures.length = p.signatures.length + 1 := by
  obtain ⟨hcheck, _, _, _, _, _, outputs, body, -, -, -, houtputs, hbody, rfl⟩ := add_eq_ok h
  exact ⟨_, ⟨hcheck, rfl, rfl, houtputs, hbody⟩, rfl, by simp⟩

theorem planned_of_foldlM (h : apps.foldlM (Progress.add g) p = .ok p') :
    ∃ plans, Planned g p.signatures.length apps plans ∧ p'.plans = p.plans ++ plans := by
  induction apps generalizing p with
  | nil => cases h; exact ⟨[], .nil, by simp⟩
  | cons a apps ih =>
    rw [List.foldlM_cons] at h
    obtain ⟨q, hadd, hrest⟩ := Outcome.bind_eq_ok.1 h
    obtain ⟨plan, hplan, hplans, hlength⟩ := Progress.add_places hadd
    obtain ⟨plans, hplanned, hall⟩ := ih hrest
    rw [hlength] at hplanned
    exact ⟨plan :: plans, .cons hplan hplanned, by rw [hall, hplans, List.append_assoc]; rfl⟩

/-- What a graph collects, and what stands in its module. -/
theorem assemble_eq_ok {m : Module} (h : assemble g = .ok m) :
    ∃ p q, collect g = .ok p ∧ parts g p = .ok q ∧
      m = {
        source := q.text
        parts := q
        link := p.link
        inputs := g.bindings g.inputs
        outputs := g.bindings g.outputs
        applications := p.signatures
        reentrant := p.reentrant
        hasInit := !p.link.initCode.isEmpty
        plans := p.plans
        tempCount := g.tempCount } := by
  unfold assemble at h
  obtain ⟨p, hp, h⟩ := Outcome.bind_eq_ok.1 h
  obtain ⟨q, hq, h⟩ := Outcome.bind_eq_ok.1 h
  cases h
  exact ⟨p, q, hp, hq, rfl⟩

theorem hasInit_eq {m : Module} (h : assemble g = .ok m) : m.hasInit = !m.link.initCode.isEmpty := by
  obtain ⟨p, q, -, -, rfl⟩ := assemble_eq_ok h
  rfl

/-- Each part of a module is the text of its pieces. -/
theorem parts_eq_ok {p : Progress} {q : Parts} (h : parts g p = .ok q) :
    Piece.renderAll [Module.header (g.bindings g.inputs) (g.bindings g.outputs) p.signatures p.link,
      Module.includes p.link.headers, Module.prelude] = .ok q.opening ∧
    globalText p = .ok q.globals ∧
    Piece.renderAll (Module.entryPieces p.plans g.inputs.length g.outputs.length g.tempCount) =
      .ok q.entry ∧
    Piece.renderAll (Module.initPieces p.link.initCode) = .ok q.init ∧
    Module.abiPiece.render = .ok q.abi := by
  unfold parts at h
  obtain ⟨opening, hopening, h⟩ := Outcome.bind_eq_ok.1 h
  obtain ⟨globals, hglobals, h⟩ := Outcome.bind_eq_ok.1 h
  obtain ⟨entry, hentry, h⟩ := Outcome.bind_eq_ok.1 h
  obtain ⟨init, hinit, h⟩ := Outcome.bind_eq_ok.1 h
  obtain ⟨abi, habi, h⟩ := Outcome.bind_eq_ok.1 h
  cases h
  exact ⟨hopening, hglobals, hentry, hinit, habi⟩

/-- **The plans of a module are those of the applications of its graph.** -/
theorem assemble_planned {m : Module} (h : assemble g = .ok m) :
    Planned g 0 g.applications m.plans := by
  obtain ⟨p, q, hp, -, rfl⟩ := assemble_eq_ok h
  obtain ⟨plans, hplanned, hplans⟩ := planned_of_foldlM hp
  have heq : p.plans = plans := hplans
  rw [heq]
  exact hplanned

end Assembly

/-- Plans whose computations stay as they are when they are put in place stay as they are. -/
theorem Module.placedPlans_of_body (program : Source.Program) (line : Nat) {plans : List Plan}
    (h : ∀ plan ∈ plans, ∀ start, placedBody program start plan = plan.body) :
    placedPlans program line plans = plans := by
  induction plans generalizing line with
  | nil => rfl
  | cons plan plans ih =>
    rw [placedPlans, h plan (by simp), ih _ fun q hq => h q (by simp [hq])]

theorem Module.length_placedPlans (program : Source.Program) (line : Nat) (plans : List Plan) :
    (placedPlans program line plans).length = plans.length := by
  induction plans generalizing line with
  | nil => rfl
  | cons plan plans ih => exact congrArg (· + 1) (ih _)

/-- A plan is put in place: only its computation can differ. -/
theorem Module.getElem?_placedPlans (program : Source.Program) (line : Nat) {plans : List Plan} {i : Nat}
    {plan : Plan} (h : plans[i]? = some plan) :
    ∃ start, (placedPlans program line plans)[i]? =
      some { plan with body := placedBody program start plan } := by
  induction plans generalizing line i with
  | nil => cases h
  | cons first plans ih =>
    cases i with
    | zero =>
      obtain rfl : first = plan := Option.some.inj h
      exact ⟨_, rfl⟩
    | succ i => exact ih _ h

end OpFusion
