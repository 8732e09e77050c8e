/-
  Calls of a builder.

  A `Call` asks a builder for an input or an application. It acts on the builder in steps, checking the
  variables that are read and then making the results one by one, and it may fail on the way: an `Action`
  has the builder at hand after a failure too. After a list of calls, of which any may have failed, the
  builder is `after` them.
-/
import OpFusion.Graph

namespace OpFusion.GraphBuilder

/-- Something that is done to a builder and may fail. -/
abbrev Action : Type → Type := ExceptT Graph.Fault (StateM GraphBuilder)

namespace Action

/-- What comes of it, and the builder after it. -/
def on {α : Type} (x : Action α) (b : GraphBuilder) : Except Graph.Fault α × GraphBuilder :=
  x.run.run b

/-- Makes a variable, and returns its number. -/
def makeVar (desc : VarDesc) : Action Nat :=
  modifyGet fun b => (b.next, { b with vars := b.vars ++ [desc] })

/-- Makes an input. -/
def addInput (desc : VarDesc) : Action Nat := do
  let var ← makeVar desc
  modify fun b => { b with inputs := b.inputs ++ [var] }
  return var

/-- Checks that a variable which a kind is applied to has been made. -/
def checkVar (kind : OpKind) (var : Nat) : Action Unit := do
  if (← get).next ≤ var then throw (.unknownVariable kind.name var)

/-- Applies a kind, and returns the numbers of the results. -/
def apply (kind : OpKind) (inputs : List Nat) (outputs : List VarDesc) : Action (List Nat) := do
  inputs.forM (checkVar kind)
  let results ← outputs.mapM makeVar
  modify fun b => { b with applications := b.applications ++ [⟨kind, inputs, results⟩] }
  return results

/-- Applies a kind with one result, and returns its number. -/
def applySingle (kind : OpKind) (inputs : List Nat) (output : VarDesc) : Action Nat := do
  let results ← apply kind inputs [output]
  return results.headD 0

end Action

/-- A call of a builder. -/
inductive Call where
  | addInput (desc : VarDesc)
  | apply (kind : OpKind) (inputs : List Nat) (outputs : List VarDesc)
  | applySingle (kind : OpKind) (inputs : List Nat) (output : VarDesc)

/-- What a call does. It returns the variables that it makes. -/
def Call.act : Call → Action (List Nat)
  | .addInput desc => List.singleton <$> Action.addInput desc
  | .apply kind inputs outputs => Action.apply kind inputs outputs
  | .applySingle kind inputs output => List.singleton <$> Action.applySingle kind inputs output

/-- The answer to a call, and the builder after it. -/
def call (b : GraphBuilder) (c : Call) : Except Graph.Fault (List Nat) × GraphBuilder :=
  c.act.on b

/-- The builder after calls. -/
def after (b : GraphBuilder) (calls : List Call) : GraphBuilder :=
  calls.foldl (fun b c => (b.call c).2) b

end OpFusion.GraphBuilder
