/-
  The encoding of records.

  Integers have a fixed width and come least significant byte first; a truth value, and the mark of an
  optional value, is one byte; a list is its length in eight bytes and then its elements, and a string
  is the list of its UTF-8 bytes; a record is its fields in order. A `Decoder` reads a value off the
  front of the input and returns the rest, or says why there is none.
-/
import OpFusion.Endian
import OpFusion.Text.Utf8

namespace OpFusion.Wire

/-! ## Writing -/

/-- A number in four bytes. -/
def u32 (n : Nat) : List UInt8 := leBytes 4 n

/-- A number in eight bytes. -/
def u64 (n : Nat) : List UInt8 := leBytes 8 n

/-- A truth value. -/
def bool (b : Bool) : List UInt8 := [if b then 1 else 0]

/-- A list of bytes. -/
def bytes (bs : List UInt8) : List UInt8 := u64 bs.length ++ bs

/-- A string. -/
def string (s : String) : List UInt8 := bytes (Utf8.bytesOf s)

/-- A list, with the encoding of its elements. -/
def list {α : Type} (item : α → List UInt8) (xs : List α) : List UInt8 :=
  u64 xs.length ++ xs.flatMap item

/-- An optional value. -/
def option {α : Type} (item : α → List UInt8) : Option α → List UInt8
  | none => [0]
  | some x => 1 :: item x

/-! ## Reading -/

/-- Why a value cannot be read. -/
inductive Fault where
  /-- The input ends inside a number, a truth value or an element. -/
  | endOfInput
  /-- The input ends inside the bytes of a string. -/
  | shortString
  /-- A byte other than zero and one where a truth value stands. -/
  | notBool (found : UInt8)
  /-- The bytes of a string are no text. -/
  | notText (fault : Utf8.Fault)
  deriving DecidableEq

/-- The wording of a fault. -/
def Fault.message : Fault → String
  | .endOfInput => "io error: unexpected end of file"
  | .shortString => "io error: "
  | .notBool found =>
    "invalid u8 while decoding bool, expected 0 or 1, found " ++ toString found.toNat
  | .notText fault => "string is not valid utf8: " ++ fault.message

/-- Reads a value and returns it with the rest of the input. -/
abbrev Decoder (α : Type) : Type := List UInt8 → Except Fault (α × List UInt8)

/-- Reads `n` bytes; if there are fewer, fails as told. -/
def take (fault : Fault) (n : Nat) : Decoder (List UInt8) := fun input =>
  if n ≤ input.length then .ok (input.take n, input.drop n) else .error fault

/-- Reads a number of `width` bytes. -/
def readNumber (width : Nat) : Decoder Nat := fun input => do
  let (bs, rest) ← take .endOfInput width input
  return (ofLeBytes bs, rest)

/-- Reads a truth value. -/
def readBool : Decoder Bool
  | [] => .error .endOfInput
  | b :: rest =>
    if b = 0 then .ok (false, rest) else if b = 1 then .ok (true, rest) else .error (.notBool b)

/-- Reads a list of bytes. -/
def readBytes : Decoder (List UInt8) := fun input => do
  let (n, rest) ← readNumber 8 input
  take .endOfInput n rest

/-- Reads a string. -/
def readString : Decoder String := fun input => do
  let (n, rest) ← readNumber 8 input
  let (bs, rest) ← take .shortString n rest
  match Utf8.decode bs with
  | .ok cs => .ok (String.ofList cs, rest)
  | .error fault => .error (.notText fault)

end OpFusion.Wire
