/-
  The state of a call, and the services that generated code asks for.

  Generated code holds addresses: those of the inputs, those in the output slots and the temporary slots,
  where an empty slot holds none, and those of the operands and results of the application that runs.
  The first failure that is reported is the one that counts. A step goes on, leaves for the cleanup, or
  breaks a rule of memory: it follows an empty slot, uses a released buffer or leaves its bounds.
-/
import OpFusion.Exec.Heap
import OpFusion.Module.Slot
import OpFusion.Source.Program
import OpFusion.Source.Value
import OpFusion.Text.Utf8

namespace OpFusion

/-- A variable that keeps its value between calls. -/
structure Static where
  type : Source.CType
  bytes : List UInt8
  deriving DecidableEq

/-- A word of 64 bits that is zero. -/
def Static.zero : Static := ⟨.integer .long, List.replicate 8 0⟩

/-- The variables of a loaded module that keep their values, by their names; others are zero. -/
abbrev Statics : Type := List (String × Static)

/-- The state of a call. -/
structure Frame where
  heap : Heap
  /-- The addresses of the inputs. -/
  inputs : List Nat
  outputs : List (Option Nat)
  temps : List (Option Nat)
  /-- The numbers of inputs and outputs, as the entry function has them. -/
  inputCount : UInt64 := 0
  outputCount : UInt64 := 0
  /-- The addresses of the operands of the application that runs. -/
  operands : List (Option Nat) := []
  /-- The addresses of its results. -/
  results : List Nat := []
  /-- The first failure. -/
  failure : Option String := none
  /-- What the call will return. -/
  status : Int32 := 0
  statics : Statics := []
  /-- What global code defines. -/
  program : Source.Program := {}

/-- How a step ends. -/
inductive Flow where
  /-- The next step follows. -/
  | next (f : Frame)
  /-- The cleanup follows. -/
  | leave (f : Frame)
  /-- A rule of memory is broken. -/
  | broken

/-- One step after another. -/
def Flow.andThen : Flow → (Frame → Flow) → Flow
  | .next f, step => step f
  | .leave f, _ => .leave f
  | .broken, _ => .broken

/-- A step on a value, which breaks a rule if there is none. -/
def Flow.given {α : Type} : Option α → (α → Flow) → Flow
  | some x, step => step x
  | none, _ => .broken

namespace Frame

/-! ## Failures -/

/-- Records a failure, unless there is one. -/
def record (f : Frame) (message : String) : Frame :=
  { f with failure := f.failure.or (some message) }

/-- Records a failure and leaves with status one. -/
def fail (f : Frame) (message : String) : Flow :=
  .leave { f.record (Source.cText message) with status := 1 }

/-- The text that bytes write, which end at their first zero. -/
def byteText (bytes : List UInt8) : String := Utf8.stringLossy (bytes.takeWhile (· ≠ 0))

/-- The failure that is recorded if no text is given. -/
def unspecified : String := "unspecified failure"

/-! ## Slots -/

/-- The address in a slot; nothing if there is no such slot. -/
def slot? (f : Frame) : Slot → Option (Option Nat)
  | .input index => (f.inputs[index]?).map some
  | .output index => f.outputs[index]?
  | .temp index => f.temps[index]?

/-- The frame with another address in a slot; inputs do not change. -/
def setSlot (f : Frame) (slot : Slot) (address : Option Nat) : Frame :=
  match slot with
  | .input _ => f
  | .output index => { f with outputs := f.outputs.set index address }
  | .temp index => { f with temps := f.temps.set index address }

/-- The buffer of an operand. -/
def operand? (f : Frame) (index : Nat) : Option Buffer := do
  let address ← (f.operands[index]?).join
  f.heap.get? address

/-- The address and the buffer of a result. -/
def result? (f : Frame) (index : Nat) : Option (Nat × Buffer) := do
  let address ← f.results[index]?
  let b ← f.heap.get? address
  return (address, b)

/-- Writes to the storage of a result, within its bounds. -/
def write (f : Frame) (index offset : Nat) (bytes : List UInt8) : Flow :=
  .given (f.result? index) fun (address, b) =>
    if offset + bytes.length ≤ b.storage.length then
      .given (f.heap.set? address { b with storage := Buffer.writeBytes b.storage offset bytes })
        fun heap => .next { f with heap }
    else .broken

/-! ## Buffers -/

/-- The failure of a release of an input. -/
def inputReleased : String := "native code tried to release an input buffer"

/-- Releases a buffer; that of an input stays, and a failure is recorded. -/
def release (f : Frame) (address : Nat) : Flow :=
  if address ∈ f.inputs then .next (f.record inputReleased)
  else .given (f.heap.release? address) fun heap => .next { f with heap }

/-- Releases a buffer, if there is one. -/
def releaseSome (f : Frame) : Option Nat → Flow
  | some address => f.release address
  | none => .next f

/-- Why a buffer is not allocated. -/
inductive AllocationFault where
  | unknownType (tag : Nat)
  | noExtents (rank : Nat)
  | negativeExtent (dim : Int64)
  | refused (fault : Buffer.Fault)

/-- The wording of a fault. -/
def AllocationFault.message : AllocationFault → String
  | .unknownType tag => "allocation with unknown dtype tag " ++ toString tag
  | .noExtents rank => "allocation of rank " ++ toString rank ++ " without extents"
  | .negativeExtent dim => "allocation with negative extent " ++ toString dim.toInt
  | .refused fault => fault.toError.message

/-- The element type and the extents for a tag, a rank and that many extents, if extents are given. -/
def shape (tag rank : Nat) (dims : Option (List Int64)) : Except AllocationFault (DType × List Nat) :=
  match DType.ofTag? tag with
  | none => .error (.unknownType tag)
  | some dtype =>
    if rank ≠ 0 ∧ dims = none then .error (.noExtents rank)
    else
      let extents := dims.getD []
      match extents.find? (·.toInt < 0) with
      | some dim => .error (.negativeExtent dim)
      | none =>
        let extents := extents.map fun dim => dim.toInt.toNat
        match Buffer.fault? dtype extents with
        | some fault => .error (.refused fault)
        | none => .ok (dtype, extents)

/-- Puts a row-major buffer on the heap, with the storage that its shape asks for; a failure is recorded,
and there is no address. -/
def allocateWith (storage : DType → List Nat → List UInt8) (f : Frame) (tag rank : Nat)
    (dims : Option (List Int64)) : Option Nat × Frame :=
  match shape tag rank dims with
  | .ok (dtype, extents) =>
    let (address, heap) := f.heap.allocate (.dense dtype extents .rowMajor (storage dtype extents))
    (some address, { f with heap })
  | .error fault => (none, f.record fault.message)

/-- Allocates a buffer of zeros. -/
def allocate : Frame → Nat → Nat → Option (List Int64) → Option Nat × Frame :=
  allocateWith Buffer.zeroStorage

/-- Allocates a buffer that nobody reads or writes, and that needs no storage. -/
def reserve : Frame → Nat → Nat → Option (List Int64) → Option Nat × Frame :=
  allocateWith fun _ _ => []

/-! ## Variables that keep their values -/

/-- A variable that keeps its value. -/
def static (f : Frame) (name : String) : Static := (f.statics.lookup name).getD .zero

/-- The frame with another value of a variable, in its place. -/
def setStatic (f : Frame) (name : String) (s : Static) : Frame :=
  { f with statics :=
      if (f.statics.lookup name).isSome then
        f.statics.map fun (other, t) => (other, if other = name then s else t)
      else f.statics ++ [(name, s)] }

end Frame

namespace Static

open Source (Value)

/-- The number in a variable. -/
def number (s : Static) : Int64 := Int64.ofInt (((Value.ofBytes? s.bytes s.type).bind (·.toInt?)).getD 0)

/-- The variable with the next number. -/
def advanced (s : Static) : Static :=
  let v? := do
    let v ← Value.ofBytes? s.bytes s.type
    let w ← Value.combine? {} .add v (.integer ⟨.int, 1⟩)
    w.convert? s.type
  { s with bytes := (v?.map (·.toBytes)).getD s.bytes }

end Static

end OpFusion
