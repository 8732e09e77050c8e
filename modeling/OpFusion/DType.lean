/-
  Element types.

  A type has a tag, which native code sees, a size in bytes, and its names: the short name, the name
  of its constructor, its type in generated code and the constant that carries its tag there.
-/

namespace OpFusion

/-- The types of the elements of a buffer. -/
inductive DType where
  | f32
  | f64
  | i32
  | i64
  | u8
  deriving DecidableEq, Inhabited

namespace DType

/-- All element types, in the order of their tags. -/
def all : List DType := [f32, f64, i32, i64, u8]

/-- The number that stands for a type in native code. -/
def tag : DType → Nat
  | f32 => 0
  | f64 => 1
  | i32 => 2
  | i64 => 3
  | u8 => 4

/-- The type with a tag. -/
def ofTag? (n : Nat) : Option DType := all.find? (·.tag = n)

/-- The size of an element in bytes. -/
def size : DType → Nat
  | f32 => 4
  | f64 => 8
  | i32 => 4
  | i64 => 8
  | u8 => 1

/-- The floating-point types. -/
def isFloat : DType → Bool
  | f32 | f64 => true
  | _ => false

/-- The short name. -/
def name : DType → String
  | f32 => "f32"
  | f64 => "f64"
  | i32 => "i32"
  | i64 => "i64"
  | u8 => "u8"

/-- The type with a short name. -/
def ofName? (s : String) : Option DType := all.find? (·.name = s)

/-- The name in displays of data. -/
def label : DType → String
  | f32 => "F32"
  | f64 => "F64"
  | i32 => "I32"
  | i64 => "I64"
  | u8 => "U8"

/-- The type in generated code. -/
def cType : DType → String
  | f32 => "float"
  | f64 => "double"
  | i32 => "int32_t"
  | i64 => "int64_t"
  | u8 => "uint8_t"

/-- The constant of generated code that holds the tag. -/
def cTag : DType → String
  | f32 => "FUSEJIT_F32"
  | f64 => "FUSEJIT_F64"
  | i32 => "FUSEJIT_I32"
  | i64 => "FUSEJIT_I64"
  | u8 => "FUSEJIT_U8"

end DType

/-- What is known of a variable before a call: its element type and the number of its axes. -/
structure VarDesc where
  dtype : DType
  rank : Nat
  deriving DecidableEq, Inhabited

namespace VarDesc

/-- A variable without axes. -/
def scalar (dtype : DType) : VarDesc := ⟨dtype, 0⟩

/-- The type and the rank, as messages name them. -/
def text (d : VarDesc) : String := d.dtype.name ++ "/r" ++ toString d.rank

/-- The description in displays of data. -/
def debug (d : VarDesc) : String :=
  "VarDesc \x7b dtype: " ++ d.dtype.label ++ ", rank: " ++ toString d.rank ++ " \x7d"

end VarDesc

/-- A variable of a graph, by its number, with its description. -/
structure Binding where
  var : Nat
  desc : VarDesc
  deriving DecidableEq

/-- The number and the description. -/
def Binding.text (b : Binding) : String := "v" ++ toString b.var ++ ":" ++ b.desc.text

end OpFusion
