/-
  The failures of a call, in the order in which they are reported.

  A call keeps the first failure only. What a statement, a computation, an output that is put in place and
  an application report, each in the frame in which it runs, is said here on its own (`Statement.reports`,
  `Body.reports`, `Frame.prepareReports`, `Plan.reports`), and the journal of a call is what its applications
  report one after another (`Frame.journal`). The failure on record at any time is the first entry of the
  journal (`Frame.runPlans_records`).
-/
import OpFusion.Proofs.Exec.Conduct
import OpFusion.Proofs.Exec.FreeCode

namespace OpFusion

/-! ## Steps that report -/

namespace Flow

variable {α : Type} {failure : Option String} {reports later : List String} {flow : Flow}
  {run : α → Frame → Flow} {reporting : α → Frame → List String}

/-- What is reported after a step that goes on. -/
def onward (report : Frame → List String) : Flow → List String
  | .next f => report f
  | .leave _ => []
  | .broken => []

/-- What steps report one after another, as long as they go on. -/
def journal (run : α → Frame → Flow) (reporting : α → Frame → List String) : List α → Frame → List String
  | [], _ => []
  | x :: steps, f => reporting x f ++ (run x f).onward (journal run reporting steps)

/-- The failure on record is the one that was there, or else the first report. -/
def Records (failure : Option String) (reports : List String) (flow : Flow) : Prop :=
  flow.Leads fun f => f.failure = failure.or reports.head?

theorem Records.andThen {step : Frame → Flow} {report : Frame → List String}
    (h : flow.Records failure reports) (hstep : ∀ f, (step f).Records f.failure (report f)) :
    (flow.andThen step).Records failure (reports ++ flow.onward report) := by
  cases flow with
  | next f =>
    refine (hstep f).imp fun f' hf' => ?_
    have hf : f.failure = failure.or reports.head? := h
    rw [hf', hf, onward, List.head?_append, Option.or_assoc]
  | leave f =>
    have hf : f.failure = failure.or reports.head? := h
    rw [onward, List.append_nil]
    exact hf
  | broken => trivial

/-- A second step that reports the same from wherever it starts, after one that does not leave. -/
theorem Records.append {step : Frame → Flow} (h : flow.Records failure reports)
    (hgoes : ∀ f, flow ≠ .leave f) (hstep : ∀ f, (step f).Records f.failure later) :
    (flow.andThen step).Records failure (reports ++ later) := by
  cases flow with
  | next f => exact h.andThen hstep
  | leave f => exact absurd rfl (hgoes f)
  | broken => trivial

end Flow

/-! ## Statements and kernels -/

namespace Frame

/-- What the release of a buffer reports, if there is one. -/
def releaseReports (f : Frame) : Option Nat → List String
  | some address => if address ∈ f.inputs then [inputReleased] else []
  | none => []

/-- What an allocation reports. -/
def allocationReports (tag rank : Nat) (dims : Option (List Int64)) : List String :=
  match shape tag rank dims with
  | .error fault => [fault.message]
  | .ok _ => []

end Frame

/-- What a statement reports. -/
def Statement.reports (c : Context) (f : Frame) : Statement → List String
  | fail message => [Source.cText (c.failure message)]
  | note bytes => [Frame.byteText bytes]
  | noteNothing => [Frame.unspecified]
  | releaseInput index => f.releaseReports f.operands[index]?.join
  | dropOutput index => f.releaseReports f.outputs[index]?.join
  | allocate tag rank dims =>
    match passedDims (halfWord rank) dims with
    | some passed =>
      let (address, f') := f.reserve (halfWord tag) (halfWord rank) passed
      Frame.allocationReports (halfWord tag) (halfWord rank) passed ++ f'.releaseReports address
    | none => []
  | status _ | releaseNothing | set _ _ _ | count _ => []

/-- What a kernel reports. -/
def Kernel.reports (k : Kernel) (c : Context) (f : Frame) : List String :=
  match k.compute f.operand? with
  | some w => (w.failure.map fun message => Source.cText (c.failure message)).toList
  | none => []

/-- The failure on record after a step. -/
def Flow.recorded : Flow → List String
  | .next f => f.failure.toList
  | .leave f => f.failure.toList
  | .broken => []

/-- The first failure that code which is free to do anything reports: the one on record after it has run with
an empty record. -/
def Frame.textReports (f : Frame) (home text : String) : List String :=
  ({ f with failure := none }.runText home text).recorded

/-- What a computation reports. -/
def Body.reports (c : Context) (f : Frame) : Body → List String
  | .kernel k => k.reports c f
  | .steps statements => Flow.journal (fun s f => s.run c f) (fun s f => s.reports c f) statements f
  | .code text => f.textReports c.name text

namespace Frame

/-- What is reported when an empty slot gets a new buffer. -/
def fillReports (message : String) (desc : VarDesc) (dims : List Int64) : List String :=
  match shape desc.dtype.tag desc.rank (if desc.rank = 0 then none else some dims) with
  | .error fault => [fault.message, Source.cText message]
  | .ok _ => []

/-- What is reported when a buffer of the right type and extents is put into a slot. -/
def ensureReports (f : Frame) (message : String) (slot : Slot) (desc : VarDesc) (dims : List Int64) :
    List String :=
  match f.slot? slot with
  | some (some address) =>
    match f.heap.get? address with
    | some b =>
      if fits b desc dims then [] else f.releaseReports (some address) ++ fillReports message desc dims
    | none => []
  | some none => fillReports message desc dims
  | none => []

/-- What is reported when one output of an application is put in place. -/
def prepareReports (f : Frame) (c : Context) (index : Nat) (o : OutputPlan) : List String :=
  match o.extents.mapM f.extent? with
  | some dims => f.ensureReports (Module.allocationFailure c index) o.slot o.desc dims
  | none => []

/-- What is reported when the outputs of an application are put in place. -/
def prologueReports (c : Context) (outputs : List OutputPlan) (f : Frame) : List String :=
  Flow.journal (fun o f => f.prepare c o.2 o.1) (fun o f => f.prepareReports c o.2 o.1) outputs.zipIdx f

end Frame

/-- What an application reports. -/
def Plan.reports (p : Plan) (f : Frame) : List String :=
  match p.inputs.mapM f.slot? with
  | some operands =>
    let taken := { f with operands, results := [] }
    Frame.prologueReports p.context p.outputs taken ++
      (Frame.prepareAll p.context 0 p.outputs taken).onward (p.body.reports p.context ·)
  | none => []

/-- The failures that applications report one after another. -/
def Frame.journal (plans : List Plan) (f : Frame) : List String := Flow.journal runPlan Plan.reports plans f

end OpFusion
