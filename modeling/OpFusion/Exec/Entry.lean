/-
  What the entry function of a module does.

  The applications run in order. Each takes the addresses of its operands, puts a buffer of the right
  type and extents in place for each output, and computes. A buffer that is in place already and fits
  is kept with what it holds; any other is released and a new one allocated. At the end, and when a
  failure cuts the call short, the temporary buffers are released.
-/
import OpFusion.Exec.FreeCode
import OpFusion.Exec.Kernel
import OpFusion.Exec.Statement
import OpFusion.Module.Assembly

namespace OpFusion

/-- What a module runs. -/
structure Code where
  inputCount : Nat
  outputCount : Nat
  tempCount : Nat
  plans : List Plan
  /-- What global code defines, with the function that runs initialisation code. -/
  program : Source.Program := {}

namespace Module

/-- What the included headers and the prelude of every module define. -/
def preludeProgram : Source.Program :=
  Source.Program.standard.add ("\n".intercalate (standardHeaders.map includeLine ++ preludeLines))

/-- A text with the number of its first line. -/
def numbered (line : Nat) (text : String) : String := "#line " ++ toString line ++ "\n" ++ text

/-- The line after a text that starts at a line. -/
def lineAfter (line : Nat) (text : String) : Nat := line + Piece.lineCount text

/-- What the parts of a module's text define, apart from the entry function. -/
def program (m : Module) : Source.Program :=
  let globalsLine := lineAfter 1 m.parts.opening
  let initLine := lineAfter (lineAfter globalsLine m.parts.globals) m.parts.entry
  ((preludeProgram.add ("\n".intercalate
    (Source.Program.flagLines m.link.compileFlags ++ m.link.headers.map includeLine))).add
    (numbered globalsLine m.parts.globals)).add (numbered initLine m.parts.init)

/-! ## Computations as text -/

/-- The variables of the entry function that hold numbers. -/
def entryNumbers : List String := ["n_inputs", "n_outputs", "fusejit_status"]

/-- Whether a text is the name of a variable of global code, and nothing else. -/
def isGlobalName (p : Source.Program) (text : String) : Bool :=
  Source.tokens text.toList = [.name text] && text ∉ entryNumbers &&
    (p.abbreviations.table.lookup text).isNone

/-- Whether a statement does what it says: a counter has to be a variable of global code. -/
def isPlain (p : Source.Program) : Statement → Bool
  | .count symbol => isGlobalName p symbol
  | _ => true

/-- The computation as text that starts at a line. -/
def placedText (line : Nat) (plan : Plan) : String :=
  numbered line (((bodyPiece plan).render).toOption.getD "")

/-- The computation of a plan that starts at a line, as text if it has to be read. -/
def placedBody (p : Source.Program) (line : Nat) (plan : Plan) : Body :=
  match plan.body with
  | .kernel k => .kernel k
  | .steps statements =>
    if statements.all (isPlain p) then .steps statements else .code (placedText line plan)
  | .code _ => .code (placedText line plan)

/-- The number of lines of pieces. -/
def heightOf (pieces : List Piece) : Nat := pieces.foldr (·.height + ·) 0

/-- The plans of applications that start at a line, with their computations in place. -/
def placedPlans (p : Source.Program) : (line : Nat) → List Plan → List Plan
  | _, [] => []
  | line, plan :: plans =>
    { plan with body := placedBody p (line + heightOf (applicationOpening plan)) plan } ::
      placedPlans p (line + heightOf (applicationPieces plan)) plans

/-- What a module runs. -/
def code (m : Module) : Code :=
  let program := m.program
  let entryLine := lineAfter (lineAfter 1 m.parts.opening) m.parts.globals
  let opening := entryOpening m.inputs.length m.outputs.length m.tempCount
  { inputCount := m.inputs.length
    outputCount := m.outputs.length
    tempCount := m.tempCount
    plans := placedPlans program (entryLine + opening.height) m.plans
    program }

end Module

namespace Frame

/-! ## Outputs -/

/-- The value of an extent. -/
def extent? (f : Frame) : Extent → Option Int64
  | .ofInput input axis => do
    let b ← f.operand? input
    let dim ← b.dims[axis]?
    return Int64.ofNat dim
  | .number value => some (Int64.ofInt value)
  | .code text => f.textExtent? text

/-- Whether a buffer can be used for an output as it is. -/
def fits (b : Buffer) (desc : VarDesc) (dims : List Int64) : Bool :=
  b.dtype = desc.dtype && b.rank = desc.rank && b.isRowMajor && Strided.dims b = dims

/-- Puts a new buffer into an empty slot. -/
def fillSlot (message : String) (slot : Slot) (desc : VarDesc) (dims : List Int64) (f : Frame) :
    Flow :=
  let (address, f) := f.allocate desc.dtype.tag desc.rank (if desc.rank = 0 then none else some dims)
  let f := f.setSlot slot address
  match address with
  | some _ => .next f
  | none => f.fail message

/-- Puts a buffer of the right type and extents into a slot, and fails with the given text if it
cannot. -/
def ensure (message : String) (slot : Slot) (desc : VarDesc) (dims : List Int64) (f : Frame) : Flow :=
  .given (f.slot? slot) fun
    | none => f.fillSlot message slot desc dims
    | some address =>
      .given (f.heap.get? address) fun b =>
        if fits b desc dims then .next f
        else ((f.setSlot slot none).release address).andThen (fillSlot message slot desc dims)

/-- Puts one output of an application in place. -/
def prepare (c : Context) (index : Nat) (o : OutputPlan) (f : Frame) : Flow :=
  .given (o.extents.mapM f.extent?) fun dims =>
    (f.ensure (Module.allocationFailure c index) o.slot o.desc dims).andThen fun f =>
      .given (f.slot? o.slot).join fun address =>
        .next { f with results := f.results ++ [address] }

/-- Puts the outputs of an application in place, from the one with the given number on. -/
def prepareAll (c : Context) : Nat → List OutputPlan → Frame → Flow
  | _, [], f => .next f
  | index, o :: outputs, f => (f.prepare c index o).andThen (prepareAll c (index + 1) outputs)

/-! ## Applications -/

/-- Runs the computation of an application. -/
def runBody (c : Context) (body : Body) (f : Frame) : Flow :=
  match body with
  | .kernel k => k.run c f
  | .steps statements => Statement.runAll c statements f
  | .code text => f.runText c.name text

/-- Runs an application. -/
def runPlan (p : Plan) (f : Frame) : Flow :=
  .given (p.inputs.mapM f.slot?) fun operands =>
    (prepareAll p.context 0 p.outputs { f with operands, results := [] }).andThen
      (runBody p.context p.body)

/-- Runs applications in order. -/
def runPlans (plans : List Plan) (f : Frame) : Flow :=
  plans.foldl (fun flow p => flow.andThen (runPlan p)) (.next f)

/-- Releases the temporary buffers. -/
def releaseTemps (f : Frame) : Flow :=
  f.temps.foldl (fun flow address => flow.andThen (·.releaseSome address)) (.next f)

/-- The frame after the cleanup; nothing if a rule of memory was broken. -/
def finish : Flow → Option Frame
  | .next f => some f
  | .leave f => some f
  | .broken => none

end Frame

/-- Runs the entry function. -/
def Code.run (code : Code) (f : Frame) : Option Frame :=
  if f.inputs.length ≠ code.inputCount ∨ f.outputs.length ≠ code.outputCount then
    some { f.record (Module.countFailure code.inputCount code.outputCount) with status := 1 }
  else do
    let f := { f with
      temps := List.replicate code.tempCount none
      inputCount := UInt64.ofNat f.inputs.length
      outputCount := UInt64.ofNat f.outputs.length
      program := code.program }
    let f ← Frame.finish (Frame.runPlans code.plans f)
    Frame.finish f.releaseTemps

end OpFusion
