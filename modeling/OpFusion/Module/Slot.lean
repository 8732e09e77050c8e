/-
  Slots: where the buffers of a graph's variables live while its module runs.

  The inputs and outputs of the graph have slots of their own; every other result of an application has
  a temporary slot, numbered in the order in which the results are made. `slotTable` gives slots out in
  three passes over the graph, and `slot` says which one a variable has in the end.
-/
import OpFusion.Graph
import OpFusion.Table

namespace OpFusion

/-- The place of a buffer during a call. -/
inductive Slot where
  | input (index : Nat)
  | output (index : Nat)
  | temp (index : Nat)
  deriving DecidableEq

/-- The slot in generated code. -/
def Slot.expr : Slot → String
  | .input index => "inputs[" ++ toString index ++ "]"
  | .output index => "outputs[" ++ toString index ++ "]"
  | .temp index => "fusejit_temps[" ++ toString index ++ "]"

/-- Slots by variable. -/
abbrev SlotTable : Type := List (Nat × Slot)

namespace SlotTable

/-- The table with slots of one sort, numbered from `index` on, for variables; a slot that one of them had
is replaced. -/
def assign (sort : Nat → Slot) (index : Nat) (t : SlotTable) : List Nat → SlotTable
  | [] => t
  | var :: vars => assign sort (index + 1) (Table.insert t var (sort index)) vars

/-- The table with temporary slots, numbered from `index` on, for those variables that have none. -/
def assignTemps (index : Nat) (t : SlotTable) : List Nat → SlotTable
  | [] => t
  | var :: vars =>
    if (t.lookup var).isSome then assignTemps index t vars
    else assignTemps (index + 1) (Table.insert t var (.temp index)) vars

/-- The number of temporary slots that have been given out. -/
def tempCount (t : SlotTable) : Nat :=
  t.countP fun
    | (_, .temp _) => true
    | _ => false

end SlotTable

namespace Graph

/-- The results of all applications, in the order in which they are made. -/
def produced (g : Graph) : List Nat := g.applications.flatMap (·.outputs)

/-- The results that are neither inputs nor outputs of the graph. -/
def temporaries (g : Graph) : List Nat :=
  g.produced.filter fun var => !(g.inputs.contains var) && !(g.outputs.contains var)

/-- The number of temporary slots. -/
def tempCount (g : Graph) : Nat := g.temporaries.length

/-- The slot of a variable. -/
def slot (g : Graph) (var : Nat) : Slot :=
  if var ∈ g.outputs then .output (g.outputs.idxOf var)
  else if var ∈ g.inputs then .input (g.inputs.idxOf var)
  else .temp (g.temporaries.idxOf var)

/-- The slots of all variables: those of the inputs, those of the outputs, and then a temporary one for
each result that is left. -/
def slotTable (g : Graph) : SlotTable :=
  (((SlotTable.assign .input 0 [] g.inputs).assign .output 0 g.outputs).assignTemps 0 g.produced)

end Graph

end OpFusion
