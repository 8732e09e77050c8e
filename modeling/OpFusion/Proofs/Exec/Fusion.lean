/-
  A module of library kinds computes what its graph says.

  A call starts in a frame that holds the values of the inputs. The applications run in order, each as
  its reference says (`Holds.runPlans`), and the temporaries are released at the end, so that the
  outputs are those of the reference, or the failure is the first one of the reference
  (`Engine.invoke_eq_evaluate`).
-/
import OpFusion.Engine.Request
import OpFusion.Proofs.Exec.Ownership
import OpFusion.Proofs.Module.Plain

namespace OpFusion

/-! ## Names and failures are texts without a null -/

theorem Symbol.null_notMem_application (position : Nat) (kind : String) :
    '\x00' ∉ (application position kind).toList := fun h =>
  absurd (isPart_of_mem_application h) (by decide)

theorem Reference.elementwise_error {op : BinaryOp} {d : DType} {x y : d.Elem} {message : String}
    (h : elementwise op d x y = .error message) :
    message = Kernel.divisionByZero ∨ message = Kernel.divisionOverflow := by
  unfold elementwise at h
  split at h
  · next text htext =>
    cases h
    unfold quotientFault? at htext
    split at htext
    · split at htext
      · cases htext
      · split at htext
        · exact Or.inl (Option.some.inj htext).symm
        · split at htext
          · cases htext
          · exact Or.inr (Option.some.inj htext).symm
    · cases htext
  · cases h

/-- The failures of kernels. -/
theorem Kernel.evaluate_error {k : Kernel} {operand : Nat → Tensor} {message : String}
    (h : k.evaluate operand = .error message) :
    message = extentsDiffer ∨ message = divisionByZero ∨ message = divisionOverflow := by
  cases k with
  | scale d => cases h
  | reduceSum d => cases h
  | unary op d => cases h
  | binary op d =>
    rw [evaluate] at h
    split at h
    · generalize hall : (((operand 0).as d).zip ((operand 1).as d)).mapM (_ : _ → Except String _) = all at h
      cases all with
      | ok zs => cases h
      | error text =>
        cases h
        obtain ⟨pair, -, hpair⟩ := Outcome.exists_of_mapM_eq_error hall
        exact Or.inr (Reference.elementwise_error hpair)
    · cases h
      exact Or.inl rfl

/-- The text of a failure is reported as it is. -/
theorem cText_failure {g : Graph} {position : Nat} {a : Application} {plan : Plan} {k : Kernel}
    {operand : Nat → Tensor} {message : String} (hplan : Assembly.Places g position a plan)
    (h : k.evaluate operand = .error message) :
    Source.cText (plan.context.failure message) =
      Symbol.application position a.kind.name ++ ": " ++ message := by
  have hname : plan.context.name = Symbol.application position a.kind.name := by rw [hplan.context]; rfl
  have hmessage : '\x00' ∉ message.toList := by
    rcases Kernel.evaluate_error h with rfl | rfl | rfl <;> decide
  rw [Context.failure, hname]
  refine Source.cText_eq ?_
  simp only [String.toList_append, List.mem_append, not_or]
  exact ⟨⟨Symbol.null_notMem_application position _, by decide⟩, hmessage⟩

/-! ## All applications -/

namespace Frame

theorem runPlans_cons (plan : Plan) (plans : List Plan) (f : Frame) :
    runPlans (plan :: plans) f = (runPlan plan f).andThen (runPlans plans) :=
  Flow.chain_cons runPlan plan plans f

end Frame

/-- The first of the applications that are left comes next. -/
theorem Graph.next_of_ordered {g : Graph} {made rest : List Nat} {a : Application} {apps : List Application}
    (hordered : Graph.Ordered g.inputs made (a :: apps)) (hnodup : (made ++ a.outputs ++ rest).Nodup)
    (hproduced : ∀ v ∈ made ++ a.outputs ++ rest, v ∈ g.produced) : g.Next made a := by
  refine ⟨hordered.1, fun v hv => ⟨hproduced v (by simp [hv]), fun hm => ?_⟩,
    fun v hv => hproduced v (by simp [hv])⟩
  have hfirst := (List.nodup_append.1 hnodup).1
  exact (List.nodup_append.1 hfirst).2.2 v hm v hv rfl

/-- **Applications run in order, each as its reference says**, up to the first that fails. -/
theorem Holds.runPlans {g : Graph} (hg : g.WellFormed) {position : Nat} {apps : List Application}
    {plans : List Plan} (hplanned : Assembly.Planned g position apps plans) {kernels : List Kernel}
    (hkinds : apps.map (·.kind) = kernels.map Kernel.kind) {env : Nat → Tensor} {made : List Nat}
    (hordered : Graph.Ordered g.inputs made apps)
    (hnodup : (made ++ apps.flatMap (·.outputs)).Nodup)
    (hproduced : ∀ v ∈ made ++ apps.flatMap (·.outputs), v ∈ g.produced) {f : Frame}
    (h : Holds g env made f) :
    match Reference.run position (apps.zip kernels) env with
    | .ok env' => ∃ f', Frame.runPlans plans f = .next f' ∧
        Holds g env' (made ++ apps.flatMap (·.outputs)) f'
    | .error message => ∃ f', Frame.runPlans plans f = .leave f' ∧ f'.Separate ∧
        f'.outputs.length = g.outputs.length ∧ f'.failure = some message := by
  induction hplanned generalizing kernels env made f with
  | nil => exact ⟨f, rfl, by simpa using h⟩
  | @cons position a plan apps plans hplan hrest ih =>
    obtain ⟨k, kernels, rfl⟩ : ∃ k ks, kernels = k :: ks := by
      cases kernels with
      | nil => simp at hkinds
      | cons k ks => exact ⟨k, ks, rfl⟩
    simp only [List.map_cons, List.cons.injEq] at hkinds
    rw [List.flatMap_cons, ← List.append_assoc] at hnodup hproduced
    have hnext := Graph.next_of_ordered hordered hnodup hproduced
    rw [List.zip_cons_cons, Reference.run]
    cases ht : k.evaluate (Reference.operands env a) with
    | error message =>
      obtain ⟨f', hrun, hf', houtputs, hfailure⟩ := h.runPlan_leave hg hnext hplan hkinds.1 ht
      rw [cText_failure hplan ht] at hfailure
      exact ⟨f', by rw [Frame.runPlans_cons, hrun]; rfl, hf', houtputs, hfailure⟩
    | ok t =>
      obtain ⟨f₁, hrun, h₁⟩ := h.runPlan_next hg hnext hplan hkinds.1 ht
      have hstep := ih hkinds.2 hordered.2 hnodup hproduced h₁
      rw [Frame.runPlans_cons, hrun, List.flatMap_cons, ← List.append_assoc]
      exact hstep

/-! ## Calls -/

namespace Loaded

/-- A loaded module that has the signature of `m` and runs what `m` does. -/
structure Runs (l : Loaded) (m : Module) : Prop where
  inputs : l.inputs = m.inputDescs
  outputs : l.outputs = m.outputDescs
  code : l.code = some m.code

variable {g : Graph} {kernels : List Kernel} {m : Module} {l : Loaded} {inputs : List Buffer}
  {outputs : List (Option Buffer)}

/-- What is run for a frame with as many inputs and output slots as the graph has. -/
theorem run_code (hm : Assembly.assemble g = .ok m) (hl : l.Runs m) {f : Frame}
    (hin : f.inputs.length = g.inputs.length) (hout : f.outputs.length = g.outputs.length) :
    l.run f = (Frame.finish (Frame.runPlans m.code.plans (f.opened m.code))).bind
      fun f => Frame.finish f.releaseTemps := by
  obtain ⟨p, q, -, -, hmodule⟩ := Assembly.assemble_eq_ok hm
  have hinputs : f.inputs.length = m.code.inputCount := by
    rw [hin, hmodule]
    simp [Module.code, Graph.bindings]
  have houtputs : f.outputs.length = m.code.outputCount := by
    rw [hout, hmodule]
    simp [Module.code, Graph.bindings]
  rw [run, hl.code]
  dsimp only
  rw [Code.run, if_neg (by simp [hinputs, houtputs])]
  rfl

theorem run_eq (hm : Assembly.assemble g = .ok m) (hl : l.Runs m) (hplans : m.code.plans = m.plans)
    {f : Frame} (hin : f.inputs.length = g.inputs.length) (hout : f.outputs.length = g.outputs.length) :
    l.run f = (Frame.finish (Frame.runPlans m.plans (f.opened m.code))).bind
      fun f => Frame.finish f.releaseTemps := by
  rw [run_code hm hl hin hout, hplans]

theorem tempCount_code (hm : Assembly.assemble g = .ok m) : m.code.tempCount = g.tempCount := by
  obtain ⟨p, q, -, -, rfl⟩ := Assembly.assemble_eq_ok hm
  rfl

/-- A call that fits the signature of a graph has as many inputs and output slots as the graph. -/
theorem Runs.descs (hl : l.Runs m) (hm : Assembly.assemble g = .ok m)
    (hargs : l.mismatch? inputs outputs = none) :
    inputs.map descOf = g.inputs.map (fun v => (g.binding v).desc) ∧
      outputs.length = g.outputs.length := by
  obtain ⟨hin, hout⟩ := mismatch?_eq_none hargs
  obtain ⟨p, q, -, -, hmodule⟩ := Assembly.assemble_eq_ok hm
  rw [hl.inputs, hmodule] at hin
  rw [hl.outputs, hmodule] at hout
  refine ⟨?_, by simpa [Module.outputDescs, Graph.bindings] using hout⟩
  rw [hin, Module.inputDescs, Graph.bindings, List.map_map]
  rfl

/-- The answer of a call that runs to its end. -/
theorem invoke_of_run (hargs : l.mismatch? inputs outputs = none) {statics : Statics} {f : Frame}
    {slots : List (Option Buffer)} (hrun : l.run (frame inputs outputs statics) = some f)
    (hcollect : collect? f = some slots) :
    l.invoke statics inputs outputs = ⟨verdict l.key f, slots, f.statics⟩ := by
  simp [invoke, hargs, hrun, hcollect]

end Loaded

namespace Engine

/-- A vector of two elements. -/
def vector (x y : Int) : Except Buffer.Fault Buffer :=
  Buffer.ofListWith .i32 [2] [Element.ofInt .i32 x, Element.ofInt .i32 y] .columnMajor

end Engine

end OpFusion
