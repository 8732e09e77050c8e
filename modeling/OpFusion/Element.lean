/-
  Elements: the values that buffers hold, and the arithmetic of the computations on them.

  A floating-point element is its bit pattern, an integer element a machine word. Every element has
  `DType.size` bytes, least significant first. Arithmetic is that of the machine: binary32 and
  binary64, integers that wrap, and division that goes toward zero. An operand that is no number goes
  through every operation with its sign and its fraction.
-/
import OpFusion.DType
import OpFusion.Endian
import OpFusion.Text.Number

namespace OpFusion

/-- The values of an element type. -/
abbrev DType.Elem : DType → Type
  | .f32 => UInt32
  | .f64 => UInt64
  | .i32 => Int32
  | .i64 => Int64
  | .u8 => UInt8

namespace Element

/-- The bit pattern of an element, as a number. -/
def bits : (d : DType) → d.Elem → Nat
  | .f32, x => UInt32.toNat x
  | .f64, x => UInt64.toNat x
  | .i32, x => (Int32.toUInt32 x).toNat
  | .i64, x => (Int64.toUInt64 x).toNat
  | .u8, x => UInt8.toNat x

/-- The element with the low bits of a number. -/
def ofBits : (d : DType) → Nat → d.Elem
  | .f32, n => UInt32.ofNat n
  | .f64, n => UInt64.ofNat n
  | .i32, n => (UInt32.ofNat n).toInt32
  | .i64, n => (UInt64.ofNat n).toInt64
  | .u8, n => UInt8.ofNat n

/-- The bytes of an element. -/
def toBytes (d : DType) (x : d.Elem) : List UInt8 := leBytes d.size (bits d x)

/-- The element that bytes hold. -/
def ofBytes (d : DType) (bytes : List UInt8) : d.Elem := ofBits d (ofLeBytes bytes)

/-- The element with all bits zero. -/
def zero (d : DType) : d.Elem := ofBits d 0

/-- The integer that an element of an integer type stands for; a bit pattern otherwise. -/
def toInt : (d : DType) → d.Elem → Int
  | .i32, x => Int32.toInt x
  | .i64, x => Int64.toInt x
  | d, x => bits d x

/-- The element of an integer type with the low bits of an integer. -/
def ofInt : (d : DType) → Int → d.Elem
  | .i32, n => Int32.ofInt n
  | .i64, n => Int64.ofInt n
  | .f32, n => UInt32.ofInt n
  | .f64, n => UInt64.ofInt n
  | .u8, n => UInt8.ofInt n

/-! ## Values that are no numbers -/

/-- Whether a floating-point element is no number: all bits of the exponent are set, and some bit of
the fraction. -/
def isNaN : (d : DType) → d.Elem → Bool
  | .f32, x => decide (0x7F800000 < UInt32.toNat x % 0x80000000)
  | .f64, x => decide (0x7FF0000000000000 < UInt64.toNat x % 0x8000000000000000)
  | _, _ => false

/-- The usual bit pattern that is no number. -/
def nan : (d : DType) → d.Elem
  | .f32 => (0x7FC00000 : UInt32)
  | .f64 => (0x7FF8000000000000 : UInt64)
  | d => zero d

/-- The result of an operation on numbers that has no number for a result. -/
def indefinite : (d : DType) → d.Elem
  | .f32 => (0xFFC00000 : UInt32)
  | .f64 => (0xFFF8000000000000 : UInt64)
  | d => zero d

/-- What becomes of an operand that is no number: the first bit of its fraction is set. -/
def quieted : (d : DType) → d.Elem → d.Elem
  | .f32, x => UInt32.lor x 0x00400000
  | .f64, x => UInt64.lor x 0x0008000000000000
  | _, x => x

/-- The result of an operation, unless an operand is no number: the first such operand goes on. -/
def through (d : DType) (operands : List d.Elem) (result : d.Elem) : d.Elem :=
  match operands.find? (isNaN d) with
  | some x => quieted d x
  | none => if isNaN d result then indefinite d else result

/-- An operation on floats of 32 bits, on their patterns. -/
def onF32 (f : Float32 → Float32) (x : UInt32) : UInt32 :=
  through .f32 [x] (f (Float32.ofBits x)).toBits

/-- An operation on floats of 64 bits, on their patterns. -/
def onF64 (f : Float → Float) (x : UInt64) : UInt64 := through .f64 [x] (f (Float.ofBits x)).toBits

/-- An operation on two floats of 32 bits, on their patterns. -/
def onF32s (f : Float32 → Float32 → Float32) (x y : UInt32) : UInt32 :=
  through .f32 [x, y] (f (Float32.ofBits x) (Float32.ofBits y)).toBits

/-- An operation on two floats of 64 bits, on their patterns. -/
def onF64s (f : Float → Float → Float) (x y : UInt64) : UInt64 :=
  through .f64 [x, y] (f (Float.ofBits x) (Float.ofBits y)).toBits

/-- A float of 32 bits as one of 64 bits. What is no number keeps its sign and its fraction. -/
def widen (x : UInt32) : UInt64 :=
  if isNaN .f32 x then
    UInt64.ofNat (x.toNat / 0x80000000 * 0x8000000000000000 + 0x7FF8000000000000 +
      x.toNat % 0x00400000 * 0x20000000)
  else (Float32.ofBits x).toFloat.toBits

/-- A float of 64 bits rounded to 32 bits. What is no number keeps its sign and the start of its
fraction. -/
def narrow (x : UInt64) : UInt32 :=
  if isNaN .f64 x then
    UInt32.ofNat (x.toNat / 0x8000000000000000 * 0x80000000 + 0x7FC00000 +
      x.toNat % 0x0008000000000000 / 0x20000000)
  else (Float.ofBits x).toFloat32.toBits

/-! ## Arithmetic -/

/-- A floating-point element with the other sign. -/
def negate : (d : DType) → d.Elem → d.Elem
  | .f32, x => UInt32.xor x 0x80000000
  | .f64, x => UInt64.xor x 0x8000000000000000
  | _, x => x

/-- A floating-point element without its sign. -/
def magnitude : (d : DType) → d.Elem → d.Elem
  | .f32, x => UInt32.land x 0x7FFFFFFF
  | .f64, x => UInt64.land x 0x7FFFFFFFFFFFFFFF
  | _, x => x

/-- The sum. -/
def add : (d : DType) → d.Elem → d.Elem → d.Elem
  | .f32, x, y => onF32s (· + ·) x y
  | .f64, x, y => onF64s (· + ·) x y
  | .i32, x, y => Int32.add x y
  | .i64, x, y => Int64.add x y
  | .u8, x, y => UInt8.add x y

/-- The difference. -/
def sub : (d : DType) → d.Elem → d.Elem → d.Elem
  | .f32, x, y => onF32s (· - ·) x y
  | .f64, x, y => onF64s (· - ·) x y
  | .i32, x, y => Int32.sub x y
  | .i64, x, y => Int64.sub x y
  | .u8, x, y => UInt8.sub x y

/-- The product. -/
def mul : (d : DType) → d.Elem → d.Elem → d.Elem
  | .f32, x, y => onF32s (· * ·) x y
  | .f64, x, y => onF64s (· * ·) x y
  | .i32, x, y => Int32.mul x y
  | .i64, x, y => Int64.mul x y
  | .u8, x, y => UInt8.mul x y

/-- The quotient; integers are divided toward zero. -/
def div : (d : DType) → d.Elem → d.Elem → d.Elem
  | .f32, x, y => onF32s (· / ·) x y
  | .f64, x, y => onF64s (· / ·) x y
  | .i32, x, y => Int32.div x y
  | .i64, x, y => Int64.div x y
  | .u8, x, y => UInt8.div x y

/-- Whether the first is less; never for a value that is no number. -/
def less : (d : DType) → d.Elem → d.Elem → Bool
  | .f32, x, y => decide (Float32.ofBits x < Float32.ofBits y)
  | .f64, x, y => decide (Float.ofBits x < Float.ofBits y)
  | .i32, x, y => decide (Int32.toInt x < Int32.toInt y)
  | .i64, x, y => decide (Int64.toInt x < Int64.toInt y)
  | .u8, x, y => decide (UInt8.toNat x < UInt8.toNat y)

/-- The least value of a signed type. -/
def least? : DType → Option Int
  | .i32 => some (-2147483648)
  | .i64 => some (-9223372036854775808)
  | _ => none

/-- The bit pattern in hexadecimal, the most significant digit first. -/
def pattern (d : DType) (x : d.Elem) : String := String.ofList (Text.hex (toBytes d x).reverse)

/-- The element with a bit pattern in hexadecimal. -/
def ofPattern? (d : DType) (s : String) : Option d.Elem :=
  (Text.hexBytes? s.toList).map fun bytes => ofBytes d bytes.reverse

end Element

end OpFusion
