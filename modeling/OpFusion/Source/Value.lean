/-
  Values of generated code, and what operators make of them.

  An address is a number of 64 bits. Arithmetic on addresses counts in elements.
-/
import OpFusion.Endian
import OpFusion.Source.CType

namespace OpFusion.Source

/-- A value. -/
inductive Value where
  /-- No value. -/
  | nothing
  | integer (x : Integer)
  | real (x : Floating)
  | pointer (target : CType) (address : Nat)
  /-- The bytes of a record. -/
  | record (tag : String) (bytes : List UInt8)
  deriving DecidableEq

namespace Value

/-- The number of addresses. -/
def addresses : Nat := 0x10000000000000000

/-- The address that a number stands for. -/
def address (n : Int) : Nat := (n % addresses).toNat

/-- The value of what is true or not. -/
def ofBool (b : Bool) : Value := integer (.ofBool b)

/-- A number of bytes. -/
def ofSize (n : Nat) : Value := integer (.ofInt .unsignedLong n)

/-- The type of a value. -/
def type : Value → CType
  | nothing => .void
  | integer x => .integer x.type
  | real x => .real x.type
  | pointer target _ => .pointer target
  | record tag _ => .record tag

/-! ## Conversions -/

/-- Whether a value counts as true. -/
def truth? : Value → Option Bool
  | integer x => some (x.value ≠ 0)
  | real x => some (x.toFloat != 0)
  | pointer _ a => some (a ≠ 0)
  | _ => none

/-- The whole number of a value. -/
def toInt? : Value → Option Int
  | integer x => some x.value
  | real x => some x.truncate
  | pointer _ a => some a
  | _ => none

/-- The value as a floating-point number of a type. -/
def toReal? (t : FloatType) : Value → Option Floating
  | integer x => some (.ofFloat t (Float.ofInt x.value))
  | real x => some (.ofBits t x.bits)
  | _ => none

/-- The floating-point number of a value. -/
def toFloat? (v : Value) : Option Float := (v.toReal? .extended).map (·.toFloat)

/-- The value in another type. -/
def convert? (v : Value) : CType → Option Value
  | .void => some nothing
  | .bool => v.truth?.map fun b => integer ⟨.byte, if b then 1 else 0⟩
  | .integer t => v.toInt?.map fun n => integer (.ofInt t n)
  | .bits t _ isTruth =>
    if isTruth then v.truth?.map fun b => integer (.ofInt t (if b then 1 else 0))
    else v.toInt?.map fun n => integer (.ofInt t n)
  | .real t => (v.toReal? t).map real
  | .pointer target => v.toInt?.map fun n => pointer target (address n)
  | .record tag =>
    match v with
    | record tag' bytes => if tag = tag' then some (record tag bytes) else none
    | _ => none
  | .constant t => v.convert? t
  | .array .. | .function _ => none

/-! ## Bytes -/

/-- The bytes of a value in memory. -/
def toBytes : Value → List UInt8
  | nothing => []
  | integer x => leBytes (x.type.bits / 8) x.pattern
  | real x =>
    match x.type with
    | .single => leBytes 4 (Element.narrow x.bits).toNat
    | .double => leBytes 8 x.bits.toNat
    | .extended => leBytes 16 x.bits.toNat
  | pointer _ a => leBytes 8 a
  | record _ bytes => bytes

/-- The value of a type that bytes in memory stand for. -/
def ofBytes? (bytes : List UInt8) : CType → Option Value
  | .void | .array .. | .function _ => none
  | .bool => some (integer ⟨.byte, ofLeBytes bytes⟩)
  | .integer t => some (integer (.ofInt t (ofLeBytes bytes)))
  | .bits t shift _ => some (integer (.ofInt t (ofLeBytes bytes >>> shift : Nat)))
  | .real .single => some (real ⟨.single, Element.widen (UInt32.ofNat (ofLeBytes bytes))⟩)
  | .real t => some (real ⟨t, UInt64.ofNat (ofLeBytes bytes)⟩)
  | .pointer target => some (pointer target (ofLeBytes bytes))
  | .record tag => some (record tag bytes)
  | .constant t => ofBytes? bytes t

/-- Bytes with a value in some of their bits. -/
def withBits (bytes : List UInt8) (t : IntType) (shift : Nat) (x : Integer) : List UInt8 :=
  let n := ofLeBytes bytes
  let low := n % (1 <<< shift)
  let high := n >>> (shift + t.bits)
  let middle := (x.value % (1 <<< t.bits : Nat)).toNat
  leBytes bytes.length (low + middle <<< shift + high <<< (shift + t.bits))

/-! ## Operators -/

/-- The result of an operator on numbers of which one is a floating-point number. -/
def onReals? (op : Operator) (t : FloatType) (x y : Value) : Option Value := do
  let a ← x.toReal? t
  let b ← y.toReal? t
  match a.arithmetic? b op with
  | some c => return real c
  | none => return ofBool (← Floating.comparison? a.toFloat b.toFloat op)

/-- The address so many elements away. -/
def moved? (types : Types) (target : CType) (a : Nat) (count : Int) : Option Value := do
  let size ← target.size? types
  return pointer target (address (a + count * size))

/-- The result of an operator with an address. -/
def onAddresses? (types : Types) (op : Operator) (x y : Value) : Option Value :=
  match op, x, y with
  | .add, pointer target a, integer n | .add, integer n, pointer target a =>
    moved? types target a n.value
  | .sub, pointer target a, integer n => moved? types target a (-n.value)
  | .sub, pointer target a, pointer _ b => do
    let size ← target.size? types
    return integer (.ofInt .long (((a : Int) - b).tdiv size))
  | op, x, y => do
    if op ∈ [.less, .greater, .atMost, .atLeast, .equal, .unequal] then
      let x := Integer.ofInt .unsignedLong (← x.toInt?)
      let y := Integer.ofInt .unsignedLong (← y.toInt?)
      (op.apply x y).map integer
    else none

/-- The result of an operator. -/
def combine? (types : Types) (op : Operator) (x y : Value) : Option Value :=
  match x, y with
  | integer a, integer b => (op.apply a b).map integer
  | pointer .., _ | _, pointer .. => onAddresses? types op x y
  | real a, real b => onReals? op (a.type.common b.type) x y
  | real a, _ => onReals? op a.type x y
  | _, real b => onReals? op b.type x y
  | _, _ => none

/-- The value with the other sign. -/
def negated? : Value → Option Value
  | integer x => (Operator.apply .sub ⟨.int, 0⟩ x).map integer
  | real x => some (real x.negated)
  | _ => none

/-- The value in the type in which it takes part in arithmetic. -/
def promoted? : Value → Option Value
  | integer x => some (integer (x.convert x.type.promote))
  | real x => some (real x)
  | _ => none

/-- The value with all bits changed. -/
def complemented? : Value → Option Value
  | integer x => (Operator.apply .bitXor ⟨.int, -1⟩ x).map integer
  | _ => none

end Value

end OpFusion.Source
