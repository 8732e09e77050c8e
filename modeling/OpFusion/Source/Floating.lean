/-
  Floating-point numbers of generated code: values with their types.

  A number of the narrow type is kept as the wider number that is equal to it. An operation works in the
  wider type of its operands and rounds its result to that type.
-/
import OpFusion.Element
import OpFusion.Source.Integer

namespace OpFusion.Source

/-- A type of floating-point numbers. -/
inductive FloatType where
  | single
  | double
  /-- At least as wide as the others. -/
  | extended
  deriving DecidableEq

namespace FloatType

/-- The number of bytes of a value. -/
def size : FloatType → Nat
  | single => 4
  | double => 8
  | extended => 16

/-- The wider of two types. -/
def common (s t : FloatType) : FloatType := if s.size < t.size then t else s

end FloatType

/-- A number with its type, as the bits of a number of 64 bits. -/
structure Floating where
  type : FloatType
  bits : UInt64
  deriving DecidableEq

namespace Floating

/-- The number without its type. -/
def toFloat (x : Floating) : Float := Float.ofBits x.bits

/-- The number with the bits of a number of 64 bits, rounded to a type. -/
def ofBits (t : FloatType) (bits : UInt64) : Floating :=
  ⟨t, if t = .single then Element.widen (Element.narrow bits) else bits⟩

/-- A number that is rounded to a type. -/
def ofFloat (t : FloatType) (x : Float) : Floating := ofBits t x.toBits

/-- The integer that is left without the fraction. -/
def truncate (x : Floating) : Int :=
  if x.toFloat < 0 then -((-x.toFloat).toUInt64.toNat : Int) else x.toFloat.toUInt64.toNat

/-- The number with the other sign. -/
def negated (x : Floating) : Floating := { x with bits := Element.negate .f64 x.bits }

/-- The result of an operation on numbers of one type. -/
def arithmetic? (x y : Floating) (op : Operator) : Option Floating :=
  let result : Option UInt64 := match op with
    | .mul => some (Element.mul .f64 x.bits y.bits)
    | .div => some (Element.div .f64 x.bits y.bits)
    | .add => some (Element.add .f64 x.bits y.bits)
    | .sub => some (Element.sub .f64 x.bits y.bits)
    | _ => none
  result.map (ofBits x.type)

/-- The result of a comparison. -/
def comparison? (x y : Float) : Operator → Option Bool
  | .less => some (x < y)
  | .greater => some (y < x)
  | .atMost => some (x ≤ y)
  | .atLeast => some (y ≤ x)
  | .equal => some (x == y)
  | .unequal => some (x != y)
  | _ => none

end Floating

end OpFusion.Source
