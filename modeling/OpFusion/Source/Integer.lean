/-
  Integers of generated code: values with their types.

  An operation works in the type that its operands have in common, and its result wraps in that type. A
  quotient that does not exist or does not fit, and a shift by too many bits, have no result.
-/

namespace OpFusion.Source

/-- A type of integers: its number of bits, whether it lacks a sign, and whether it is the second of two
types that agree in both (`char` beside `signed char`, `long long` beside `long`). -/
structure IntType where
  bits : Nat
  unsigned : Bool := false
  twin : Bool := false
  deriving DecidableEq

namespace IntType

/-- The type of characters, which have a sign. -/
def char : IntType := { bits := 8, twin := true }

/-- The type of small constants. -/
def int : IntType := { bits := 32 }

/-- Words of 32 bits without a sign. -/
def unsignedInt : IntType := { bits := 32, unsigned := true }

/-- Words of 64 bits. -/
def long : IntType := { bits := 64 }

/-- Words of 64 bits without a sign. -/
def unsignedLong : IntType := { bits := 64, unsigned := true }

/-- Bytes without a sign. -/
def byte : IntType := { bits := 8, unsigned := true }

/-- Words of 16 bits without a sign. -/
def halfWord : IntType := { bits := 16, unsigned := true }

/-- The value of the type with the low bits of a number. -/
def wrap (t : IntType) (n : Int) : Int :=
  if t.unsigned then n % (1 <<< t.bits : Nat) else n.bmod (1 <<< t.bits)

/-- Whether a number is a value of the type. -/
def holds (t : IntType) (n : Int) : Bool := t.wrap n = n

/-- The type in which values take part in operations. -/
def promote (t : IntType) : IntType := if t.bits < 32 then int else t

/-- The type that two operands have in common: the wider one, and of two of one width the one without
a sign. -/
def common (s t : IntType) : IntType :=
  let s := s.promote
  let t := t.promote
  if s.bits = t.bits then ⟨s.bits, s.unsigned || t.unsigned, s.twin || t.twin⟩
  else if s.bits < t.bits then t else s

end IntType

/-- A value with its type. -/
structure Integer where
  type : IntType
  value : Int
  deriving DecidableEq

namespace Integer

/-- The value of a type with the low bits of a number. -/
def ofInt (t : IntType) (n : Int) : Integer := ⟨t, t.wrap n⟩

/-- The value in another type. -/
def convert (t : IntType) (x : Integer) : Integer := ofInt t x.value

/-- One for what is true, zero for what is not. -/
def ofBool (b : Bool) : Integer := ⟨.int, if b then 1 else 0⟩

/-- A number of the first type that holds it. -/
def ofNumber (n : Int) : Integer :=
  .ofInt (([IntType.int, .unsignedInt, .long].find? (·.holds n)).getD .unsignedLong) n

/-- The low bits of a value. -/
def pattern (x : Integer) : Nat := (x.value % (1 <<< x.type.bits : Nat)).toNat

end Integer

/-- Operators with two operands. -/
inductive Operator where
  | mul
  | div
  | rem
  | add
  | sub
  | shiftLeft
  | shiftRight
  | less
  | greater
  | atMost
  | atLeast
  | equal
  | unequal
  | bitAnd
  | bitXor
  | bitOr
  deriving DecidableEq

namespace Operator

/-- The type of the result for operands of the given types. -/
def resultType (s t : IntType) : Operator → IntType
  | shiftLeft | shiftRight => s.promote
  | less | greater | atMost | atLeast | equal | unequal => .int
  | mul | div | rem | add | sub | bitAnd | bitXor | bitOr => s.common t

/-- The result of an operation on values of one type. -/
def onCommon (t : IntType) (a b : Int) : Operator → Option Integer
  | mul => some (.ofInt t (a * b))
  | div => if b ≠ 0 ∧ t.holds (a.tdiv b) then some ⟨t, a.tdiv b⟩ else none
  | rem => if b ≠ 0 ∧ t.holds (a.tdiv b) then some ⟨t, a.tmod b⟩ else none
  | add => some (.ofInt t (a + b))
  | sub => some (.ofInt t (a - b))
  | less => some (.ofBool (a < b))
  | greater => some (.ofBool (b < a))
  | atMost => some (.ofBool (a ≤ b))
  | atLeast => some (.ofBool (b ≤ a))
  | equal => some (.ofBool (a = b))
  | unequal => some (.ofBool (a ≠ b))
  | bitAnd => some (.ofInt t ((Integer.mk t a).pattern &&& (Integer.mk t b).pattern : Nat))
  | bitXor => some (.ofInt t ((Integer.mk t a).pattern ^^^ (Integer.mk t b).pattern : Nat))
  | bitOr => some (.ofInt t ((Integer.mk t a).pattern ||| (Integer.mk t b).pattern : Nat))
  | shiftLeft => none
  | shiftRight => none

/-- The result of a shift: the type is that of the left operand. -/
def shift (x : Integer) (count : Int) (f : Int → Int → Int) : Option Integer :=
  let t := x.type.promote
  if 0 ≤ count ∧ count < t.bits then some (.ofInt t (f x.value (1 <<< count.toNat : Nat))) else none

/-- The result of an operation, if there is one. -/
def apply (op : Operator) (x y : Integer) : Option Integer :=
  match op with
  | shiftLeft => shift x y.value fun a power => a * power
  | shiftRight => shift x y.value fun a power => a / power
  | op =>
    let t := x.type.common y.type
    op.onCommon t (t.wrap x.value) (t.wrap y.value)

end Operator

end OpFusion.Source
