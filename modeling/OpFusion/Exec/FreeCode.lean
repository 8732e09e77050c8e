/-
  Free code of a module: computations, extents and initialisation code that are given as text.

  The code sees what global code defines, the parameters and the slots of the entry function, and the
  operands and results of the application that runs.
-/
import OpFusion.Exec.Interpreter
import OpFusion.Kind.Context

namespace OpFusion

open Source (CType Value Program)

/-- The most steps that free code may take. -/
def stepLimit : Nat := 0x1000000

namespace Run

/-- The type of buffers in generated code. -/
def bufferType : CType := .record "fusejit_buffer"

/-- The type of addresses of buffers in generated code. -/
def bufferAddress : CType := .pointer bufferType

/-- The address of the table of services. -/
def servicesValue : Value := .pointer (.record "fusejit_runtime") (Region.address .services 0)

/-- The address of a buffer, or none. -/
def bufferValue (address : Option Nat) : Value :=
  .pointer bufferType ((address.map fun k => Region.address (.header k) 0).getD 0)

/-- A variable that holds a value. -/
def hold (name : String) (v : Value) : Run (String × Variable) := do
  return (name, ⟨v.type, ← allocate v.toBytes⟩)

/-- The variables of the entry function. -/
def entryScope : Run Scope := do
  let f := (← get).frame
  let rt ← hold "rt" servicesValue
  let inputs ← hold "inputs" (.pointer bufferAddress (Region.address .inputs 0))
  let inputCount := Variable.mk CType.size (Region.address .inputCount 0)
  let outputs ← hold "outputs" (.pointer bufferAddress (Region.address .outputs 0))
  let outputCount := Variable.mk CType.size (Region.address .outputCount 0)
  let temps := Variable.mk (.array bufferAddress (some f.temps.length)) (Region.address .temps 0)
  let status := Variable.mk CType.int (Region.address .status 0)
  return [← ownName "fusejit_entry", rt, inputs, ("n_inputs", inputCount), outputs,
    ("n_outputs", outputCount), ("fusejit_temps", temps), ("fusejit_status", status)]

/-- The variables of an application: its operands and its results. -/
def applicationScope : Run Scope := do
  let f := (← get).frame
  let outer ← entryScope
  let operands ← f.operands.mapIdxM fun index address =>
    hold (Context.input index) (bufferValue address)
  let results ← f.results.mapIdxM fun index address =>
    hold (Context.output index) (bufferValue (some address))
  return results ++ operands ++ outer

end Run

namespace Frame

/-- The machine that runs code of a frame. -/
def machine (f : Frame) (home : String) (types : Source.Types) : Machine :=
  { frame := { f with program := { f.program with types } }, home }

/-- The frame that a machine leaves, with the program that it had. -/
def back (f : Frame) (m : Machine) : Frame := { m.frame with program := f.program }

/-- Runs a computation that is given as text. -/
def runText (f : Frame) (home text : String) : Flow :=
  let (commands, types) := f.program.commands text
  let body : Run Outcome := do
    let scope ← Run.applicationScope
    Run.runAll stepLimit scope commands commands
  match body.run (f.machine home types) with
  | some (.leave v, m) =>
    .leave { f.back m with status := Int32.ofInt (v.toInt?.getD 0) }
  | some (.jump _, m) => .leave (f.back m)
  | some (_, m) => .next (f.back m)
  | none => .broken

/-- The value of an extent that is given as text. -/
def textExtent? (f : Frame) (text : String) : Option Int64 := do
  let (e, types) ← f.program.expression? text
  let value : Run Value := do
    let scope ← Run.applicationScope
    Run.eval stepLimit scope e
  let (v, _) ← value.run (f.machine "" types)
  return Int64.ofInt (← v.toInt?)

end Frame

/-! ## Global variables -/

/-- Puts global variables in place, each with its first value. -/
def Run.setGlobals : List (String × Source.Global) → Run Unit
  | [] => return
  | (name, g) :: globals => do
    let types ← Run.types
    let t := g.value.elim g.type (First.completed types g.type)
    let m ← get
    if (m.frame.statics.lookup name).isNone then
      set { m with frame := m.frame.setStatic name ⟨t, List.replicate (← Run.sizeOf t) 0⟩ }
    match g.value with
    | some value =>
      let some index := (← get).frame.statics.findIdx? (·.1 = name) | failure
      Run.fill stepLimit [] t (Region.address (.static index) 0) value
    | none => pure ()
    setGlobals globals

/-- The variables of a program with their first values. -/
def Source.Program.statics (p : Program) : Statics :=
  p.globals.foldl (fun statics g =>
    let m : Machine := { frame :=
      { heap := {}, inputs := [], outputs := [], temps := [], statics, program := p } }
    match (Run.setGlobals [g]).run m with
    | some (_, m) => m.frame.statics
    | none => statics) []

end OpFusion
