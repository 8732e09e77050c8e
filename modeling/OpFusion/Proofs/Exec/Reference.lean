/-
  The reference: what a graph of library kinds computes, on arrays without any storage.

  A tensor is an array by its elements in row-major order. A kernel makes a tensor of tensors, or fails:
  operations on floats are those of the machine, operations on integers are exact and then wrapped, a
  quotient has to exist and to fit, and a sum of floats is taken in binary64 in the order of the
  elements. A graph is evaluated application by application; the first failure is the answer.
-/
import Mathlib
import OpFusion.Exec.Kernel
import OpFusion.Kind.Library
import OpFusion.Graph

namespace OpFusion

/-- An array: its elements in row-major order. -/
structure Tensor where
  dtype : DType
  dims : List Nat
  elements : List dtype.Elem

namespace Tensor

instance : Inhabited Tensor := ⟨⟨.f32, [], []⟩⟩

/-- The elements, if they have the given type. -/
def as (t : Tensor) (d : DType) : List d.Elem := if h : t.dtype = d then h ▸ t.elements else []

@[simp] theorem as_dtype (t : Tensor) : t.as t.dtype = t.elements := by simp [as]

/-- The description of a tensor. -/
def desc (t : Tensor) : VarDesc := ⟨t.dtype, t.dims.length⟩

end Tensor

/-- The array that a buffer holds. -/
def Buffer.tensor (b : Buffer) : Tensor := ⟨b.dtype, b.dims, b.elements b.dtype⟩

/-! ## Elements -/

/-- The operation on integers. -/
def BinaryOp.onInts : BinaryOp → Int → Int → Int
  | add, x, y => x + y
  | sub, x, y => x - y
  | mul, x, y => x * y
  | div, x, y => x.tdiv y
  | max, x, y => Max.max x y
  | min, x, y => Min.min x y

namespace Reference

/-- The operation on two elements: integers wrap. -/
def value (op : BinaryOp) (d : DType) (x y : d.Elem) : d.Elem :=
  if d.isFloat then op.apply d x y
  else Element.ofInt d (op.onInts (Element.toInt d x) (Element.toInt d y))

/-- Whether an integer is one of an element type. -/
def Fits (d : DType) (n : Int) : Prop := Element.toInt d (Element.ofInt d n) = n

instance (d : DType) (n : Int) : Decidable (Fits d n) := inferInstanceAs (Decidable (_ = _))

/-- Why there is no quotient of two elements, if there is none. -/
def quotientFault? (d : DType) (x y : d.Elem) : Option String :=
  if d.isFloat then none
  else if Element.toInt d y = 0 then some Kernel.divisionByZero
  else if Fits d ((Element.toInt d x).tdiv (Element.toInt d y)) then none
  else some Kernel.divisionOverflow

/-- The operation on two elements, which may fail. -/
def elementwise (op : BinaryOp) (d : DType) (x y : d.Elem) : Except String d.Elem :=
  match if op = .div then quotientFault? d x y else none with
  | some message => .error message
  | none => .ok (value op d x y)

/-- The sum of elements. -/
def sum : (d : DType) → List d.Elem → d.Elem
  | .f32, xs => Element.narrow ((xs.map Element.widen).foldl (Element.add .f64) 0)
  | .f64, xs => xs.foldl (Element.add .f64) 0
  | d, xs => Element.ofInt d (xs.map (Element.toInt d)).sum

end Reference

/-! ## Kernels and graphs -/

namespace Kernel

/-- The kind of a kernel. -/
def kind : Kernel → OpKind
  | scale d => Library.scale d
  | reduceSum d => Library.reduceSum d
  | binary op d => Library.binary op d
  | unary op d => Library.unary op d

/-- The tensor that a kernel makes of its operands, or the failure of the first element that has no
result. -/
def evaluate (operand : Nat → Tensor) : Kernel → Except String Tensor
  | scale d =>
    let factor := ((operand 1).as d).headD (Element.zero d)
    .ok ⟨d, (operand 0).dims, ((operand 0).as d).map fun x => Reference.value .mul d x factor⟩
  | reduceSum d => .ok ⟨d, [], [Reference.sum d ((operand 0).as d)]⟩
  | binary op d =>
    if (operand 0).dims = (operand 1).dims then
      ((((operand 0).as d).zip ((operand 1).as d)).mapM fun (x, y) =>
        Reference.elementwise op d x y).map fun zs => ⟨d, (operand 0).dims, zs⟩
    else .error extentsDiffer
  | unary op d => .ok ⟨d, (operand 0).dims, ((operand 0).as d).map (op.apply d)⟩

end Kernel

namespace Reference

/-- The values of the operands of an application. -/
def operands (env : Nat → Tensor) (a : Application) (i : Nat) : Tensor := env (a.inputs.getD i 0)

/-- Evaluates applications of kernels from a position on, on the values of variables. -/
def run (position : Nat) : List (Application × Kernel) → (Nat → Tensor) → Except String (Nat → Tensor)
  | [], env => .ok env
  | (a, k) :: apps, env =>
    match k.evaluate (operands env a) with
    | .error message => .error (Symbol.application position a.kind.name ++ ": " ++ message)
    | .ok t => run (position + 1) apps fun v => if v ∈ a.outputs then t else env v

/-- The values of variables at the start. -/
def start (g : Graph) (inputs : List Tensor) (v : Nat) : Tensor :=
  inputs.getD (g.inputs.idxOf v) default

end Reference

/-- The outputs of a graph, whose applications are those of the given kernels. -/
def Graph.evaluate (g : Graph) (kernels : List Kernel) (inputs : List Tensor) :
    Except String (List Tensor) :=
  (Reference.run 0 (g.applications.zip kernels) (Reference.start g inputs)).map g.outputs.map

end OpFusion
