/-
  The library kinds: scaling by a scalar, the sum of all elements, and operations element by element
  on one or two operands.
-/
import OpFusion.Kind.Basic

namespace OpFusion.Library

/-- Rejects an application unless a condition holds. -/
def require (condition : Bool) (reason : String) : Except Refusal Unit :=
  if condition then .ok () else .error (.reject reason)

/-- The extents of the first input; without an input there is no answer. -/
def extentsOfFirst (c : Context) : Except Refusal (List Extent) :=
  match c.inputs with
  | [] => .error .crash
  | desc :: _ => .ok (Extent.like 0 desc.rank)

/-- The parameter that names the element type. -/
def dtypeParam (dtype : DType) : String := "dtype=" ++ dtype.name

/-- Every element times a scalar. -/
def scale (dtype : DType) : OpKind where
  name := "scale"
  params := dtypeParam dtype
  version := some [1, 0]
  check c := do
    c.expectArity 2 1
    c.expectDType dtype
    require (c.inputRank 1 = 0)
      ("factor must be a scalar, got rank " ++ toString (c.inputRank 1))
    require (c.outputRank 0 = c.inputRank 0)
      ("output rank " ++ toString (c.outputRank 0) ++ " differs from input rank " ++
        toString (c.inputRank 0))
  kindBlocks := [Kernel.stridedOffsetBlock]
  extents c _ := extentsOfFirst c
  body _ := .ok (.kernel (.scale dtype))

/-- The sum of all elements, a scalar. -/
def reduceSum (dtype : DType) : OpKind where
  name := "reduce_sum"
  params := dtypeParam dtype
  version := some [1, 0]
  check c := do
    c.expectArity 1 1
    c.expectDType dtype
    require (c.outputRank 0 = 0)
      ("sum produces a scalar, output declared rank " ++ toString (c.outputRank 0))
  kindBlocks := [Kernel.stridedOffsetBlock]
  extents _ _ := .ok []
  body _ := .ok (.kernel (.reduceSum dtype))

/-- An operation on the elements of two operands of the same extents. -/
def binary (op : BinaryOp) (dtype : DType) : OpKind where
  name := "elementwise_binary"
  params := "op=" ++ op.name ++ "," ++ dtypeParam dtype
  version := some [1, 1]
  check c := do
    c.expectArity 2 1
    c.expectDType dtype
    require (c.inputRank 1 = c.inputRank 0 && c.outputRank 0 = c.inputRank 0)
      ("operands must share rank " ++ toString (c.inputRank 0) ++ ", got " ++
        toString (c.inputRank 1) ++ " and output " ++ toString (c.outputRank 0))
  kindBlocks := [Kernel.stridedOffsetBlock]
  appBlocks c := .ok [Kernel.combineBlock c op dtype]
  extents c _ := extentsOfFirst c
  body _ := .ok (.kernel (.binary op dtype))

/-- An operation on each element of a floating-point operand. -/
def unary (op : UnaryOp) (dtype : DType) : OpKind where
  name := "elementwise_unary"
  params := "op=" ++ op.name ++ "," ++ dtypeParam dtype
  version := some [1, 0]
  check c := do
    c.expectArity 1 1
    require dtype.isFloat (op.name ++ " needs a floating point type, got " ++ dtype.name)
    c.expectDType dtype
    require (c.outputRank 0 = c.inputRank 0) "output rank differs from input rank"
  kindBlocks := [Kernel.stridedOffsetBlock]
  extents c _ := extentsOfFirst c
  body _ := .ok (.kernel (.unary op dtype))
  link := { headers := ["math.h"], libraries := ["m"] }

end OpFusion.Library
