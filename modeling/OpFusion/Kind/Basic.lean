/-
  Kinds of operations.

  A kind does not compute anything itself: it gives fragments of code for each of its applications, and
  the assembler joins the fragments of all applications to one module. Its identity is its name, its
  parameters and its version: kinds that agree in these give the same fragments.
-/
import OpFusion.Kind.Extent
import OpFusion.Kind.Kernel
import OpFusion.Kind.Statement
import OpFusion.Link

namespace OpFusion

/-- The computation of an application. -/
inductive Body where
  /-- The computation of a library kind. -/
  | kernel (k : Kernel)
  /-- Statements, one after another. -/
  | steps (statements : List Statement)
  /-- Free code. -/
  | code (text : String)
  deriving DecidableEq

/-- The computation in generated code. -/
def Body.text (c : Context) : Body → String
  | .kernel k => k.code c
  | .steps statements => "\n".intercalate (statements.map (·.code c))
  | .code text => text

/-- The version of the code of a kind, a sequence of numbers. -/
abbrev Version : Type := List UInt32

/-- A kind of operations, by the fragments it gives. -/
structure OpKind where
  name : String
  /-- Every setting that changes the fragments. -/
  params : String := ""
  /-- Without a version, or with an empty one, modules are told apart by their whole text. -/
  version : Option Version
  /-- Rejects applications that the kind cannot compute. -/
  check : Context → Except Refusal Unit := fun _ => .ok ()
  /-- Global code shared by all applications of the kind. -/
  kindBlocks : List SupportBlock := []
  /-- Global code of one application. -/
  appBlocks : Context → Except Refusal (List SupportBlock) := fun _ => .ok []
  /-- The extents of an output, one per axis. -/
  extents : Context → Nat → Except Refusal (List Extent)
  /-- The computation, which runs when all outputs are in place. -/
  body : Context → Except Refusal Body
  link : Link := {}
  /-- Whether calls may overlap; not so if the global code has state. -/
  reentrant : Bool := true

end OpFusion
