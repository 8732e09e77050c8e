/-
  Calls of loaded modules.

  A call is checked against the signature first. Its inputs and the buffers that are in the output slots
  are put on a heap, the entry function runs, and the output slots are read back. The first failure
  that was reported is the answer; without one, a status other than zero is.
-/
import OpFusion.Exec.Loaded

namespace OpFusion.Loaded

/-- Why a call does not fit a signature. -/
inductive Mismatch where
  | inputCount (expected got : Nat)
  | outputCount (expected got : Nat)
  | input (index : Nat) (expected got : VarDesc)
  deriving DecidableEq

/-- The wording of a mismatch. -/
def Mismatch.message : Mismatch → String
  | .inputCount expected got =>
    "expected " ++ toString expected ++ " input(s), got " ++ toString got
  | .outputCount expected got =>
    "expected " ++ toString expected ++ " output slot(s), got " ++ toString got
  | .input index expected got =>
    "input " ++ toString index ++ " must be " ++ expected.text ++ ", got " ++ got.text

/-- The description that a buffer has. -/
def descOf (b : Buffer) : VarDesc := ⟨b.dtype, b.rank⟩

/-- The first input from `index` on that is not as described. -/
def inputMismatch? (index : Nat) : List Buffer → List VarDesc → Option Mismatch
  | b :: buffers, desc :: descs =>
    if descOf b = desc then inputMismatch? (index + 1) buffers descs
    else some (.input index desc (descOf b))
  | _, _ => none

/-- Why a call does not fit, if it does not. -/
def mismatch? (m : Loaded) (inputs : List Buffer) (outputs : List (Option Buffer)) :
    Option Mismatch :=
  if inputs.length ≠ m.inputs.length then some (.inputCount m.inputs.length inputs.length)
  else if outputs.length ≠ m.outputs.length then
    some (.outputCount m.outputs.length outputs.length)
  else inputMismatch? 0 inputs m.inputs

/-- The addresses of the buffers in slots, the next one given, and the buffers. -/
def place (next : Nat) : List (Option Buffer) → List (Option Nat) × List Buffer
  | [] => ([], [])
  | none :: slots =>
    let (addresses, buffers) := place next slots
    (none :: addresses, buffers)
  | some b :: slots =>
    let (addresses, buffers) := place (next + 1) slots
    (some next :: addresses, b :: buffers)

/-- The frame at the start of a call. -/
def frame (inputs : List Buffer) (outputs : List (Option Buffer)) (statics : Statics) : Frame :=
  let (addresses, buffers) := place inputs.length outputs
  { heap := ⟨(inputs ++ buffers).map some⟩
    inputs := List.range inputs.length
    outputs := addresses
    temps := []
    statics }

/-- The buffers in the output slots at the end of a call. -/
def collect? (f : Frame) : Option (List (Option Buffer)) :=
  f.outputs.mapM fun
    | none => some none
    | some address => (f.heap.get? address).map some

/-- What has become of a call. -/
structure Called where
  result : Except Error Unit
  outputs : List (Option Buffer)
  statics : Statics

/-- The answer that a frame gives at the end of a call. -/
def verdict (key : Key) (f : Frame) : Except Error Unit :=
  match f.failure with
  | some message => .error (.runtime message)
  | none =>
    if f.status = 0 then .ok ()
    else .error (.runtime
      ("module " ++ key.hex ++ " returned status " ++ toString f.status.toInt))

/-- Runs what a module runs. -/
def run (m : Loaded) (f : Frame) : Option Frame :=
  match m.code with
  | some code => code.run f
  | none => some f

/-- Calls a module with buffers, or none, in its output slots. -/
def invoke (m : Loaded) (statics : Statics) (inputs : List Buffer)
    (outputs : List (Option Buffer)) : Called :=
  match m.mismatch? inputs outputs with
  | some mismatch => ⟨.error (.invocation mismatch.message), outputs, statics⟩
  | none =>
    match (m.run (frame inputs outputs statics)).bind fun f =>
        (collect? f).map fun outputs => (f, outputs) with
    | some (f, outputs) => ⟨verdict m.key f, outputs, f.statics⟩
    | none => ⟨.error .crash, [], statics⟩

/-- The buffers in all slots from `index` on, or the error for an empty one. -/
def allProduced (index : Nat) : List (Option Buffer) → Except Error (List Buffer)
  | [] => .ok []
  | none :: _ => .error (.runtime ("output " ++ toString index ++ " was not produced"))
  | some b :: slots => (allProduced (index + 1) slots).map (b :: ·)

/-- Calls a module with empty output slots and gives all outputs. -/
def call (m : Loaded) (statics : Statics) (inputs : List Buffer) :
    Except Error (List Buffer) × Statics :=
  let c := m.invoke statics inputs (m.outputs.map fun _ => none)
  (c.result.bind fun _ => allProduced 0 c.outputs, c.statics)

end OpFusion.Loaded
