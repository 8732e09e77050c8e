/-
  What the kernels of the library kinds compute.

  A kernel reads its operands through the strided offset function, and writes its results one after
  another, until one of them fails.
-/
import OpFusion.Exec.Frame
import OpFusion.Exec.Strided
import OpFusion.Kind.Kernel

namespace OpFusion

namespace BinaryOp

/-- The operation on two elements. -/
def apply (op : BinaryOp) (d : DType) (x y : d.Elem) : d.Elem :=
  match op with
  | add => Element.add d x y
  | sub => Element.sub d x y
  | mul => Element.mul d x y
  | div => Element.div d x y
  | max => if Element.less d y x then x else y
  | min => if Element.less d x y then x else y

/-- Why the operation on two elements fails: a quotient of integers may not exist, or not fit. -/
def fault? (op : BinaryOp) (d : DType) (x y : d.Elem) : Option String :=
  if op ≠ div ∨ d.isFloat then none
  else if Element.toInt d y = 0 then some Kernel.divisionByZero
  else if Element.toInt d y = -1 ∧ Element.least? d = some (Element.toInt d x) then
    some Kernel.divisionOverflow
  else none

end BinaryOp

namespace UnaryOp

/-- The operation on floats of 32 bits, for those that round. -/
def onFloat32 : UnaryOp → Float32 → Float32
  | exp, x => x.exp
  | log, x => x.log
  | tanh, x => x.tanh
  | sqrt, x => x.sqrt
  | _, x => x

/-- The operation on floats of 64 bits, for those that round. -/
def onFloat : UnaryOp → Float → Float
  | exp, x => x.exp
  | log, x => x.log
  | tanh, x => x.tanh
  | sqrt, x => x.sqrt
  | _, x => x

/-- The operation on an element; there is none on integers, which stay as they are. -/
def apply (op : UnaryOp) (d : DType) (x : d.Elem) : d.Elem :=
  match op, d, x with
  | neg, d, x => Element.negate d x
  | abs, d, x => Element.magnitude d x
  | op, .f32, x => Element.onF32 op.onFloat32 x
  | op, .f64, x => Element.onF64 op.onFloat x
  | _, .i32, x => x
  | _, .i64, x => x
  | _, .u8, x => x

end UnaryOp

namespace Kernel

/-- The sum of elements in their order, in binary64 or in words of 64 bits, as an element. -/
def total : (d : DType) → List d.Elem → d.Elem
  | .f32, xs =>
    Element.narrow (xs.foldl (fun (t : UInt64) x => Element.add .f64 t (Element.widen x)) 0)
  | .f64, xs => xs.foldl (fun (t x : UInt64) => Element.add .f64 t x) 0
  | .i32, xs => (xs.foldl (fun (t : Int64) (x : Int32) => t + x.toInt64) 0).toInt32
  | .i64, xs => xs.foldl (fun (t x : Int64) => t + x) 0
  | .u8, xs => (xs.foldl (fun (t : Int64) (x : UInt8) => t + Int64.ofNat x.toNat) 0).toUInt64.toUInt8

/-- The element type of a kernel. -/
def dtype : Kernel → DType
  | scale d => d
  | reduceSum d => d
  | binary _ d => d
  | unary _ d => d

/-- What a kernel writes, from the first element of its result on, and the failure that ended it. -/
structure Written (d : DType) where
  elements : List d.Elem
  failure : Option String := none

/-- The results of an operation on pairs, until one fails. -/
def combine (op : BinaryOp) (d : DType) : List (d.Elem × d.Elem) → Written d
  | [] => ⟨[], none⟩
  | (x, y) :: pairs =>
    match op.fault? d x y with
    | some message => ⟨[], some message⟩
    | none =>
      let w := combine op d pairs
      ⟨op.apply d x y :: w.elements, w.failure⟩

/-- What a kernel writes for its operands; nothing if it breaks a rule of memory. -/
def compute (operand? : Nat → Option Buffer) : (k : Kernel) → Option (Written k.dtype)
  | scale d => do
    let x ← operand? 0
    let y ← operand? 1
    let factor ← Strided.loadAt? y d 0
    let xs ← Strided.elements? x d
    return ⟨xs.map fun v => Element.mul d v factor, none⟩
  | reduceSum d => do
    let x ← operand? 0
    let xs ← Strided.elements? x d
    return ⟨[total d xs], none⟩
  | binary op d => do
    let x ← operand? 0
    let y ← operand? 1
    if Strided.sameDims x y then
      let xs ← Strided.elements? x d
      let ys ← Strided.elements? y d
      return combine op d (xs.zip ys)
    else return ⟨[], some extentsDiffer⟩
  | unary op d => do
    let x ← operand? 0
    let xs ← Strided.elements? x d
    return ⟨xs.map (op.apply d), none⟩

/-- Runs a kernel. -/
def run (k : Kernel) (c : Context) (f : Frame) : Flow :=
  .given (compute f.operand? k) fun w =>
    (f.write 0 0 (w.elements.flatMap (Element.toBytes k.dtype))).andThen fun f =>
      match w.failure with
      | some message => f.fail (c.failure message)
      | none => .next f

end Kernel

end OpFusion
