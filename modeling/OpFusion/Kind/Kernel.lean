/-
  The computations of the library kinds, as operations and as code.

  A kernel reads its inputs through the strided offset function, which all kernels share, and writes
  its output densely. Integer division is guarded: a zero divisor, and the least value divided by
  minus one, are reported as failures.
-/
import OpFusion.Kind.Context
import OpFusion.Text.Block

namespace OpFusion

/-! ## Operations -/

/-- Operations on two elements. -/
inductive BinaryOp where
  | add
  | sub
  | mul
  | div
  | max
  | min
  deriving DecidableEq

namespace BinaryOp

/-- All operations. -/
def all : List BinaryOp := [add, sub, mul, div, max, min]

/-- The name of an operation. -/
def name : BinaryOp → String
  | add => "add"
  | sub => "sub"
  | mul => "mul"
  | div => "div"
  | max => "max"
  | min => "min"

/-- The operation with a name. -/
def ofName? (s : String) : Option BinaryOp := all.find? (·.name = s)

/-- The expression for two operands. -/
def expr (op : BinaryOp) (lhs rhs : String) : String :=
  let l := "(" ++ lhs ++ ")"
  let r := "(" ++ rhs ++ ")"
  match op with
  | add => l ++ " + " ++ r
  | sub => l ++ " - " ++ r
  | mul => l ++ " * " ++ r
  | div => l ++ " / " ++ r
  | max => l ++ " > " ++ r ++ " ? " ++ l ++ " : " ++ r
  | min => l ++ " < " ++ r ++ " ? " ++ l ++ " : " ++ r

end BinaryOp

/-- Operations on one floating-point element. -/
inductive UnaryOp where
  | neg
  | abs
  | exp
  | log
  | tanh
  | sqrt
  deriving DecidableEq

namespace UnaryOp

/-- All operations. -/
def all : List UnaryOp := [neg, abs, exp, log, tanh, sqrt]

/-- The name of an operation. -/
def name : UnaryOp → String
  | neg => "neg"
  | abs => "abs"
  | exp => "exp"
  | log => "log"
  | tanh => "tanh"
  | sqrt => "sqrt"

/-- The operation with a name. -/
def ofName? (s : String) : Option UnaryOp := all.find? (·.name = s)

/-- The expression for an operand; functions on 32 bits have a name of their own. -/
def expr (op : UnaryOp) (dtype : DType) (arg : String) : String :=
  let call (f : String) : String := f ++ (if dtype = .f32 then "f" else "") ++ "(" ++ arg ++ ")"
  match op with
  | neg => "-(" ++ arg ++ ")"
  | abs => call "fabs"
  | exp => call "exp"
  | log => call "log"
  | tanh => call "tanh"
  | sqrt => call "sqrt"

end UnaryOp

/-! ## Kernels -/

/-- The computation of a library kind. -/
inductive Kernel where
  /-- Each element of the first input times the second, a scalar. -/
  | scale (dtype : DType)
  /-- The sum of all elements. -/
  | reduceSum (dtype : DType)
  /-- An operation on the elements of two inputs of the same extents. -/
  | binary (op : BinaryOp) (dtype : DType)
  /-- An operation on each element. -/
  | unary (op : UnaryOp) (dtype : DType)
  deriving DecidableEq

namespace Kernel

/-- The identity of the block that defines the strided offset function. -/
def stridedOffsetId : String := "fusejit_kinds.strided_offset"

/-- The strided offset function. -/
def stridedOffsetName : String := "fusejit_kinds_strided_offset"

/-- The byte offset of the element at a row-major position of a strided buffer. -/
def stridedOffsetBlock : SupportBlock where
  id := stridedOffsetId
  code := Text.indented 8 [
    "static int64_t " ++ stridedOffsetName ++ "(const fusejit_buffer* buffer, int64_t linear) \x7b",
    "  int64_t offset = 0;",
    "  for (uint32_t axis = buffer->rank; axis > 0; --axis) \x7b",
    "    const int64_t extent = buffer->dims[axis - 1];",
    "    if (extent > 0) \x7b",
    "      offset += (linear % extent) * buffer->strides[axis - 1];",
    "      linear /= extent;",
    "    \x7d",
    "  \x7d",
    "  return offset;",
    "\x7d"]
  symbols := [stridedOffsetName]

/-- The expression that reads the element of a buffer at a position. -/
def loadExpr (dtype : DType) (buffer index : String) : String :=
  "(*(const " ++ dtype.cType ++ "*)((const char*)" ++ buffer ++ "->data + " ++ stridedOffsetName ++
    "(" ++ buffer ++ ", " ++ index ++ ")))"

/-- The function of an application that combines two elements. -/
def combineName (c : Context) : String := c.symbol "combine"

/-- The block that defines the combining function. -/
def combineBlock (c : Context) (op : BinaryOp) (dtype : DType) : SupportBlock where
  id := combineName c
  code := Text.indented 12 [
    "static inline " ++ dtype.cType ++ " " ++ combineName c ++ "(" ++ dtype.cType ++ " lhs, " ++
      dtype.cType ++ " rhs) \x7b",
    "  return (" ++ dtype.cType ++ ")(" ++ op.expr "lhs" "rhs" ++ ");",
    "\x7d"]
  symbols := [combineName c]

/-- The failure of two operands of different extents. -/
def extentsDiffer : String := "operand extents differ"

/-- The failure of a zero divisor. -/
def divisionByZero : String := "division by zero"

/-- The failure of the least value divided by minus one. -/
def divisionOverflow : String := "division overflow"

/-- The constant of generated code for the least value of a signed type. -/
def leastConstant? : DType → Option String
  | .i32 => some "INT32_MIN"
  | .i64 => some "INT64_MIN"
  | _ => none

/-- A statement under a condition, inside the loop over the elements. -/
def guardLines (condition statement : String) : List String :=
  ["  if (" ++ condition ++ ") \x7b", "    " ++ statement, "  \x7d"]

/-- The guards of an integer division. -/
def divisionGuards (c : Context) (op : BinaryOp) (dtype : DType) : List String :=
  if op = .div ∧ dtype.isFloat = false then
    guardLines "rhs_value == 0" (c.fail divisionByZero) ++
      match leastConstant? dtype with
      | some least =>
        guardLines ("rhs_value == -1 && lhs_value == " ++ least) (c.fail divisionOverflow)
      | none => []
  else []

/-- The kernel in generated code. -/
def code (c : Context) : Kernel → String
  | scale d => Text.indented 12 [
      "const int64_t count = fusejit_numel(in0);",
      "const " ++ d.cType ++ " factor = *(const " ++ d.cType ++ "*)in1->data;",
      d.cType ++ "* dst = (" ++ d.cType ++ "*)out0->data;",
      "for (int64_t i = 0; i < count; ++i) \x7b",
      "  dst[i] = (" ++ d.cType ++ ")(" ++ loadExpr d "in0" "i" ++ " * factor);",
      "\x7d"]
  | reduceSum d =>
    let total := if d.isFloat then "double" else "int64_t"
    Text.indented 12 [
      "const int64_t count = fusejit_numel(in0);",
      total ++ " total = 0;",
      "for (int64_t i = 0; i < count; ++i) \x7b",
      "  total += (" ++ total ++ ")" ++ loadExpr d "in0" "i" ++ ";",
      "\x7d",
      "*(" ++ d.cType ++ "*)out0->data = (" ++ d.cType ++ ")total;"]
  | binary op d => Text.indented 12 (
      ["if (!fusejit_same_dims(in0, in1)) \x7b",
      "  " ++ c.fail extentsDiffer,
      "\x7d",
      "const int64_t count = fusejit_numel(in0);",
      d.cType ++ "* dst = (" ++ d.cType ++ "*)out0->data;",
      "for (int64_t i = 0; i < count; ++i) \x7b",
      "  const " ++ d.cType ++ " lhs_value = " ++ loadExpr d "in0" "i" ++ ";",
      "  const " ++ d.cType ++ " rhs_value = " ++ loadExpr d "in1" "i" ++ ";"] ++
      divisionGuards c op d ++
      ["  dst[i] = " ++ combineName c ++ "(lhs_value, rhs_value);",
      "\x7d"])
  | unary op d => Text.indented 12 [
      "const int64_t count = fusejit_numel(in0);",
      d.cType ++ "* dst = (" ++ d.cType ++ "*)out0->data;",
      "for (int64_t i = 0; i < count; ++i) \x7b",
      "  dst[i] = " ++ op.expr d (loadExpr d "in0" "i") ++ ";",
      "\x7d"]

end Kernel

end OpFusion
