/-
  The memory that free code sees.

  Every object lies in a region of its own, and an address is the number of a region and an offset in it.
  The parts of a buffer are regions, as are the slots, the services, the status, the variables that keep
  their values, and the objects that the code makes.
-/
import OpFusion.Exec.Frame
import OpFusion.Exec.Strided

namespace OpFusion

open Source (CType Value)

/-- A region of memory. -/
inductive Region where
  /-- What a buffer says about itself. -/
  | header (buffer : Nat)
  | dims (buffer : Nat)
  | strides (buffer : Nat)
  | data (buffer : Nat)
  /-- An object that the code has made. -/
  | object (index : Nat)
  /-- A variable that keeps its value. -/
  | static (index : Nat)
  /-- A function of global code. -/
  | function (index : Nat)
  /-- A service. -/
  | service (index : Nat)
  /-- A function that the code has made. -/
  | closure (index : Nat)
  | inputs
  | outputs
  | temps
  /-- The table of services. -/
  | services
  /-- What the call will return. -/
  | status
  /-- The number of inputs. -/
  | inputCount
  /-- The number of outputs. -/
  | outputCount
  deriving DecidableEq

namespace Region

/-- The number of a region. -/
def code : Region → Nat
  | header k => 10 * k
  | dims k => 10 * k + 1
  | strides k => 10 * k + 2
  | data k => 10 * k + 3
  | object k => 10 * k + 4
  | static k => 10 * k + 5
  | function k => 10 * k + 6
  | service k => 10 * k + 7
  | closure k => 10 * k + 8
  | inputs => 9
  | outputs => 19
  | temps => 29
  | services => 39
  | status => 49
  | inputCount => 59
  | outputCount => 69

/-- The region with a number. -/
def ofCode? (n : Nat) : Option Region :=
  let k := n / 10
  match n % 10 with
  | 0 => some (header k)
  | 1 => some (dims k)
  | 2 => some (strides k)
  | 3 => some (data k)
  | 4 => some (object k)
  | 5 => some (static k)
  | 6 => some (function k)
  | 7 => some (service k)
  | 8 => some (closure k)
  | _ => [inputs, outputs, temps, services, status, inputCount, outputCount][k]?

/-- A region is found by its number. -/
theorem ofCode?_code (r : Region) : ofCode? r.code = some r := by
  cases r <;> simp [code, ofCode?, Nat.mul_add_div, Nat.mul_mod_right]

/-- The addresses between the starts of two regions. -/
def room : Nat := 0x100000000

/-- The address of a place in a region. No region starts at zero. -/
def address (r : Region) (offset : Nat) : Nat := (r.code + 1) * room + offset

/-- The region of an address, and the offset in it. -/
def ofAddress? (a : Nat) : Option (Region × Nat) :=
  if a < room then none else (ofCode? (a / room - 1)).map fun r => (r, a % room)

end Region

/-- A variable: its type and where it lies. -/
structure Variable where
  type : CType
  address : Nat

/-- The variables that names stand for. -/
abbrev Scope : Type := List (String × Variable)

/-- A function with the variables around it. -/
structure Closure where
  name : String
  function : Source.Function
  scope : Scope

/-- The memory of free code. -/
structure Machine where
  frame : Frame
  objects : Array (List UInt8) := #[]
  closures : Array Closure := #[]
  /-- Where names of variables that keep their values belong. -/
  home : String := ""

namespace Machine

/-- The bytes of an address, which is zero if there is none. -/
def addressBytes (r : Option Region) : List UInt8 := leBytes 8 ((r.map (·.address 0)).getD 0)

/-- The bytes of slots. -/
def slotBytes (slots : List (Option Nat)) : List UInt8 :=
  slots.flatMap fun slot => addressBytes (slot.map .header)

/-- What a buffer says about itself. -/
def headerBytes (address : Nat) (b : Buffer) : List UInt8 :=
  leBytes 4 b.dtype.tag ++ leBytes 4 b.rank ++ addressBytes (some (.dims address)) ++
    addressBytes (some (.strides address)) ++ addressBytes (some (.data address)) ++
    leBytes 4 b.flags ++ leBytes 4 0

/-- Numbers of 64 bits. -/
def wordBytes (words : List Int64) : List UInt8 := words.flatMap fun n => leBytes 8 n.toUInt64.toNat

/-- The bytes of a region. -/
def bytes? (m : Machine) : Region → Option (List UInt8)
  | .header k => (m.frame.heap.get? k).map (headerBytes k)
  | .dims k => (m.frame.heap.get? k).map fun b => wordBytes (Strided.dims b)
  | .strides k => (m.frame.heap.get? k).map fun b => wordBytes b.strides
  | .data k => (m.frame.heap.get? k).map (·.storage)
  | .object k => m.objects[k]?
  | .static k => (m.frame.statics[k]?).map (·.2.bytes)
  | .function _ | .service _ | .closure _ => some []
  | .inputs => some (slotBytes (m.frame.inputs.map some))
  | .outputs => some (slotBytes m.frame.outputs)
  | .temps => some (slotBytes m.frame.temps)
  | .services =>
    some (leBytes 8 0 ++ (List.range 3).flatMap fun index => addressBytes (some (.service index)))
  | .status => some (leBytes 4 m.frame.status.toUInt32.toNat)
  | .inputCount => some (leBytes 8 m.frame.inputCount.toNat)
  | .outputCount => some (leBytes 8 m.frame.outputCount.toNat)

/-- So many bytes from an address on. -/
def read? (m : Machine) (a count : Nat) : Option (List UInt8) :=
  if count = 0 then some []
  else do
    let (r, offset) ← Region.ofAddress? a
    let bytes ← m.bytes? r
    if offset + count ≤ bytes.length then some (Buffer.readBytes bytes offset count) else none

/-- The bytes from an address up to a zero. -/
def text? (m : Machine) (a : Nat) : Option (List UInt8) := do
  let (r, offset) ← Region.ofAddress? a
  let bytes := (← m.bytes? r).drop offset
  if bytes.contains 0 then some (bytes.takeWhile (· ≠ 0)) else none

/-- The slots that bytes stand for. -/
def slots? : (fuel : Nat) → List UInt8 → Option (List (Option Nat))
  | _, [] => some []
  | 0, _ => none
  | fuel + 1, bytes => do
    let rest ← slots? fuel (bytes.drop 8)
    let a := ofLeBytes (bytes.take 8)
    if a = 0 then some (none :: rest)
    else match Region.ofAddress? a with
      | some (.header k, 0) => some (some k :: rest)
      | _ => none

/-- The machine with other bytes in a region. -/
def setBytes? (m : Machine) (r : Region) (bytes : List UInt8) : Option Machine :=
  match r with
  | .data k => do
    let b ← m.frame.heap.get? k
    let heap ← m.frame.heap.set? k { b with storage := bytes }
    return { m with frame := { m.frame with heap } }
  | .object k => some { m with objects := m.objects.setIfInBounds k bytes }
  | .static k =>
    some { m with frame := { m.frame with
      statics := m.frame.statics.modify k fun (name, s) => (name, { s with bytes }) } }
  | .outputs => do
    let outputs ← slots? bytes.length bytes
    return { m with frame := { m.frame with outputs } }
  | .temps => do
    let temps ← slots? bytes.length bytes
    return { m with frame := { m.frame with temps } }
  | .status => some { m with frame := { m.frame with status := Int32.ofNat (ofLeBytes bytes) } }
  | .inputCount =>
    some { m with frame := { m.frame with inputCount := UInt64.ofNat (ofLeBytes bytes) } }
  | .outputCount =>
    some { m with frame := { m.frame with outputCount := UInt64.ofNat (ofLeBytes bytes) } }
  | _ => none

/-- The machine with bytes written from an address on, within the bounds of a region. -/
def write? (m : Machine) (a : Nat) (bytes : List UInt8) : Option Machine :=
  if bytes.isEmpty then some m
  else do
    let (r, offset) ← Region.ofAddress? a
    let old ← m.bytes? r
    if offset + bytes.length ≤ old.length then m.setBytes? r (Buffer.writeBytes old offset bytes)
    else none

/-- The machine with one more object, and its address. -/
def allocate (m : Machine) (bytes : List UInt8) : Nat × Machine :=
  (Region.address (.object m.objects.size) 0, { m with objects := m.objects.push bytes })

end Machine

/-! ## Runs -/

/-- A run that changes memory and gives a value, or breaks a rule. -/
abbrev Run : Type → Type := StateT Machine Option

namespace Run

/-- Reads bytes. -/
def read (a count : Nat) : Run (List UInt8) := do (← get).read? a count

/-- Writes bytes. -/
def write (a : Nat) (bytes : List UInt8) : Run Unit := do set (← (← get).write? a bytes)

/-- Makes an object. -/
def allocate (bytes : List UInt8) : Run Nat := do
  let (a, m) := (← get).allocate bytes
  set m
  return a

/-- The names of types. -/
def types : Run Source.Types := do return (← get).frame.program.types

/-- The number of bytes of values of a type. -/
def sizeOf (t : CType) : Run Nat := do t.size? (← types)

/-- The value at an address; that of an array or a function is the address itself. -/
def load (t : CType) (a : Nat) : Run Value := do
  match t.bare with
  | .array element _ => return .pointer element a
  | .function result => return .pointer (.function result) a
  | t => Value.ofBytes? (← read a (← sizeOf t)) t

/-- Writes a value to an address, in the type that is there. -/
def store (t : CType) (a : Nat) (v : Value) : Run Value := do
  let w ← v.convert? t
  match t.bare, w with
  | .bits part shift _, .integer x =>
    write a (Value.withBits (← read a (← sizeOf t)) part shift x)
  | _, w => write a w.toBytes
  return w

end Run

end OpFusion
