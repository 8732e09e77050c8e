/-
  Graphs of operations.

  A graph has variables, numbered in the order in which they were made, and applications of kinds to
  them, in an order in which they can run. A `GraphBuilder` makes inputs and applications one by one;
  `finish` names the outputs, which have to be distinct results of applications.
-/
import OpFusion.Kind.Basic
import OpFusion.Text.Quoted

namespace OpFusion

/-- The use of a kind on variables. -/
structure Application where
  kind : OpKind
  inputs : List Nat
  outputs : List Nat

/-- A graph of operations. -/
structure Graph where
  name : String
  vars : List VarDesc
  applications : List Application
  inputs : List Nat
  outputs : List Nat

namespace Graph

/-- A variable with its description. -/
def binding (g : Graph) (var : Nat) : Binding := ⟨var, g.vars.getD var default⟩

/-- Variables with their descriptions. -/
def bindings (g : Graph) (vars : List Nat) : List Binding := vars.map g.binding

/-- The descriptions of the inputs. -/
def inputDescs (g : Graph) : List VarDesc := (g.bindings g.inputs).map (·.desc)

/-- The descriptions of the outputs. -/
def outputDescs (g : Graph) : List VarDesc := (g.bindings g.outputs).map (·.desc)

/-- Variables in displays of data. -/
def debugVars (vars : List Nat) : String :=
  Text.bracketed (vars.map fun v => "VarId(" ++ toString v ++ ")")

/-- An application in displays of data. -/
def debugApplication (a : Application) : String :=
  "Application \x7b kind: " ++ Text.quoted a.kind.name ++ ", inputs: " ++ debugVars a.inputs ++
    ", outputs: " ++ debugVars a.outputs ++ " \x7d"

/-- The graph in displays of data. -/
def debug (g : Graph) : String :=
  "Graph \x7b name: " ++ Text.quoted g.name ++ ", variables: " ++
    Text.bracketed (g.vars.map (·.debug)) ++ ", applications: " ++
    Text.bracketed (g.applications.map debugApplication) ++ ", inputs: " ++ debugVars g.inputs ++
    ", outputs: " ++ debugVars g.outputs ++ " \x7d"

/-- Why there is no such graph. -/
inductive Fault where
  /-- An application of a kind to a variable that has not been made. -/
  | unknownVariable (kind : String) (var : Nat)
  /-- An output that has not been made. -/
  | undefinedOutput (var : Nat)
  /-- An output that is an input. -/
  | forwardedInput (var : Nat)
  /-- An output that is named before. -/
  | repeatedOutput (var : Nat)
  deriving DecidableEq

/-- The wording of a fault. -/
def Fault.message : Fault → String
  | .unknownVariable kind var => "op '" ++ kind ++ "' consumes unknown variable " ++ toString var
  | .undefinedOutput var => "graph output " ++ toString var ++ " is not defined"
  | .forwardedInput var =>
    "graph output " ++ toString var ++
      " must be produced by an application, not forwarded from an input"
  | .repeatedOutput var => "graph output " ++ toString var ++ " is listed twice"

/-- The error of a fault. -/
def Fault.toError (f : Fault) : Error := .graph f.message

end Graph

/-- A graph in the making. -/
structure GraphBuilder where
  name : String
  vars : List VarDesc := []
  applications : List Application := []
  inputs : List Nat := []

namespace GraphBuilder

/-- The number of the variable that is made next. -/
def next (b : GraphBuilder) : Nat := b.vars.length

/-- The builder with one more input, whose number is `next`. -/
def addInput (b : GraphBuilder) (desc : VarDesc) : GraphBuilder :=
  { b with vars := b.vars ++ [desc], inputs := b.inputs ++ [b.next] }

/-- The numbers of the results of an application that is made next. -/
def results (b : GraphBuilder) (outputs : List VarDesc) : List Nat :=
  List.range' b.next outputs.length

/-- The builder with one more application, and the numbers of its results. -/
def apply (b : GraphBuilder) (kind : OpKind) (inputs : List Nat) (outputs : List VarDesc) :
    Except Graph.Fault (List Nat × GraphBuilder) :=
  match inputs.find? (b.vars.length ≤ ·) with
  | some var => .error (.unknownVariable kind.name var)
  | none =>
    .ok (b.results outputs,
      { b with
        vars := b.vars ++ outputs
        applications := b.applications ++ [⟨kind, inputs, b.results outputs⟩] })

/-- Checks the outputs that follow the ones in `seen`. -/
def checkOutputs (b : GraphBuilder) (seen : List Nat) : List Nat → Except Graph.Fault Unit
  | [] => .ok ()
  | var :: rest =>
    if b.vars.length ≤ var then .error (.undefinedOutput var)
    else if var ∈ b.inputs then .error (.forwardedInput var)
    else if var ∈ seen then .error (.repeatedOutput var)
    else b.checkOutputs (var :: seen) rest

/-- The graph with the given outputs. -/
def finish (b : GraphBuilder) (outputs : List Nat) : Except Graph.Fault Graph :=
  match b.checkOutputs [] outputs with
  | .error fault => .error fault
  | .ok () => .ok ⟨b.name, b.vars, b.applications, b.inputs, outputs⟩

/-- The builder with more inputs. -/
def addInputs (b : GraphBuilder) (descs : List VarDesc) : GraphBuilder := descs.foldl addInput b

end GraphBuilder

/-- An application to be made: the kind, the variables it reads and what it makes. -/
structure Request where
  kind : OpKind
  inputs : List Nat
  outputs : List VarDesc

/-- The graph with the given inputs, applications and outputs. -/
def Graph.build (name : String) (inputs : List VarDesc) (requests : List Request)
    (outputs : List Nat) : Except Graph.Fault Graph := do
  let b := ({ name } : GraphBuilder).addInputs inputs
  let b ← requests.foldlM (fun b r => (b.apply r.kind r.inputs r.outputs).map (·.2)) b
  b.finish outputs

end OpFusion
