/-
  What a kind knows of an application while it writes code for it, and the global code it may ask for.

  The code of an application calls its inputs `in0`, `in1`, … and its outputs `out0`, `out1`, ….
-/
import OpFusion.DType
import OpFusion.Error
import OpFusion.Source.Literal
import OpFusion.Symbol
import OpFusion.Text.Search

namespace OpFusion

/-- One application: its name and the descriptions of its inputs and outputs. -/
structure Context where
  name : String
  inputs : List VarDesc
  outputs : List VarDesc
  deriving DecidableEq

/-- Why a kind does not give a fragment. -/
inductive Refusal where
  /-- The kind rejects the application. -/
  | reject (reason : String)
  /-- The kind has no answer at all. -/
  | crash
  deriving DecidableEq

/-- The error of a refusal, for an application of a kind. -/
def Refusal.toError (kind application : String) : Refusal → Error
  | .reject reason => .contributor kind application reason
  | .crash => .crash

namespace Context

/-- The name of an input in the code. -/
def input (index : Nat) : String := "in" ++ toString index

/-- The name of an output in the code. -/
def output (index : Nat) : String := "out" ++ toString index

/-- The number that stands after a text in a name, if there is nothing else in it. -/
def numberAfter? (start name : String) : Option Nat :=
  ((Text.dropPrefix? start.toList name.toList).bind Text.word?).filter fun n =>
    start ++ toString n = name

/-- The input that a name in the code stands for. -/
def inputOf? (name : String) : Option Nat := numberAfter? "in" name

/-- The text of a failure of an application. -/
def failure (c : Context) (message : String) : String := c.name ++ ": " ++ message

/-- The statement that reports a failure and abandons the call. -/
def fail (c : Context) (message : String) : String :=
  "FUSEJIT_FAIL(\"" ++ Source.escape (c.failure message) ++ "\");"

/-- A global symbol of the application. -/
def symbol (c : Context) (ofName : String) : String := Symbol.owned c.name ofName

/-- Rejects any other number of inputs and outputs. -/
def expectArity (c : Context) (inputs outputs : Nat) : Except Refusal Unit :=
  if c.inputs.length = inputs ∧ c.outputs.length = outputs then .ok ()
  else .error (.reject ("expected " ++ toString inputs ++ " input(s) and " ++ toString outputs ++
    " output(s), got " ++ toString c.inputs.length ++ " and " ++ toString c.outputs.length))

/-- Rejects operands of another element type. -/
def expectDType (c : Context) (dtype : DType) : Except Refusal Unit :=
  match (c.inputs ++ c.outputs).find? (·.dtype ≠ dtype) with
  | none => .ok ()
  | some d =>
    .error (.reject ("expected " ++ dtype.name ++ " operands, got " ++ d.dtype.name))

/-- The rank of an input; zero if there is no such input. -/
def inputRank (c : Context) (index : Nat) : Nat := (c.inputs[index]?.map (·.rank)).getD 0

/-- The rank of an output; zero if there is no such output. -/
def outputRank (c : Context) (index : Nat) : Nat := (c.outputs[index]?.map (·.rank)).getD 0

end Context

/-- A piece of global code with an identity: one identity always stands for the same block. -/
structure SupportBlock where
  id : String
  code : String
  /-- The global symbols that the code defines. -/
  symbols : List String := []
  /-- The blocks that have to stand before this one. -/
  after : List String := []
  deriving DecidableEq

end OpFusion
