/-
  Assembly: from a graph to a module.

  The applications are taken in order. Each is checked first, then gives its global blocks, its extents
  and its computation; requirements are merged and identities recorded. The parts are then written
  out one after another, and the first thing that fails is the answer.
-/
import OpFusion.Module.Text
import OpFusion.Support

namespace OpFusion

/-- The parts of the text of a module, in order. -/
structure Parts where
  /-- The header comment, the included headers and the prelude. -/
  opening : String
  /-- The global code of kinds and applications. -/
  globals : String
  entry : String
  init : String
  /-- The function that returns the version of the native interface. -/
  abi : String
  deriving DecidableEq

/-- The text of all parts. -/
def Parts.text (p : Parts) : String := p.opening ++ p.globals ++ p.entry ++ p.init ++ p.abi

/-- A module: its text, what it needs, its signature, and the plans that the text writes out. -/
structure Module where
  source : String
  /-- The parts that the text is made of. -/
  parts : Parts
  link : Link
  inputs : List Binding
  outputs : List Binding
  applications : List Signature
  reentrant : Bool
  hasInit : Bool
  plans : List Plan
  tempCount : Nat
  deriving DecidableEq

namespace Module

/-- The descriptions of the inputs. -/
def inputDescs (m : Module) : List VarDesc := m.inputs.map (·.desc)

/-- The descriptions of the outputs. -/
def outputDescs (m : Module) : List VarDesc := m.outputs.map (·.desc)

/-- Whether every application is versioned. -/
def isVersioned (m : Module) : Bool := m.applications.all (·.isVersioned)

/-- The names of the kinds without a version, in order and without repetition. -/
def unversionedKinds (m : Module) : List String :=
  (((m.applications.filter (!·.isVersioned)).map (·.kind)).mergeSort
    fun a b => !decide (b < a)).eraseReps

end Module

namespace Assembly

/-- What has been collected from the applications so far. -/
structure Progress where
  symbols : SymbolTable
  kindBlocks : SupportSet := []
  appBlocks : SupportSet := []
  link : Link := {}
  reentrant : Bool := true
  signatures : List Signature := []
  plans : List Plan := []

/-- Nothing collected: the prelude owns its symbols. -/
def Progress.start : Progress :=
  { symbols := Module.reservedSymbols.map fun symbol => (symbol, Module.preludeId) }

/-- The context of an application. -/
def context (g : Graph) (position : Nat) (a : Application) : Context where
  name := Symbol.application position a.kind.name
  inputs := (g.bindings a.inputs).map (·.desc)
  outputs := (g.bindings a.outputs).map (·.desc)

/-- Whose blocks these are, in messages. -/
def owner (a : Application) (c : Context) : String := "op '" ++ a.kind.name ++ "' (" ++ c.name ++ ")"

/-- The plan of one output of an application. -/
def planOutput (g : Graph) (a : Application) (c : Context) (index var : Nat) :
    Except Refusal OutputPlan := do
  let extents ← a.kind.extents c index
  let desc := (g.binding var).desc
  if extents.length = desc.rank then return ⟨g.slot var, desc, extents⟩
  else .error (.reject ("output " ++ toString index ++ " declares rank " ++ toString desc.rank ++
    " but " ++ toString extents.length ++ " extent(s) were provided"))

/-- The plans of the outputs of an application from `index` on. -/
def planOutputs (g : Graph) (a : Application) (c : Context) (index : Nat) :
    List Nat → Except Refusal (List OutputPlan)
  | [] => .ok []
  | var :: vars => do
    let o ← planOutput g a c index var
    let rest ← planOutputs g a c (index + 1) vars
    return o :: rest

/-- A result of a kind, with the application named if it refused. -/
def ask {α : Type} (a : Application) (c : Context) (answer : Except Refusal α) : Except Error α :=
  answer.mapError (·.toError a.kind.name c.name)

/-- The signature of an application. -/
def signature (g : Graph) (a : Application) (c : Context) : Signature where
  name := c.name
  kind := a.kind.name
  params := a.kind.params
  version := a.kind.version
  inputs := g.bindings a.inputs
  outputs := g.bindings a.outputs

/-- Collects one more application. -/
def Progress.add (g : Graph) (p : Progress) (a : Application) : Except Error Progress := do
  let c := context g p.signatures.length a
  ask a c (a.kind.check c)
  let (kindBlocks, symbols) ←
    (Support.insertAll p.kindBlocks p.symbols (owner a c) a.kind.kindBlocks).mapError (·.toError)
  let blocks ← ask a c (a.kind.appBlocks c)
  let (appBlocks, symbols) ←
    (Support.insertAll p.appBlocks symbols (owner a c) blocks).mapError (·.toError)
  let outputs ← ask a c (planOutputs g a c 0 a.outputs)
  let body ← ask a c (a.kind.body c)
  return {
    symbols, kindBlocks, appBlocks
    link := p.link.merge a.kind.link
    reentrant := p.reentrant && a.kind.reentrant
    signatures := p.signatures ++ [signature g a c]
    plans := p.plans ++ [⟨c, a.inputs.map g.slot, outputs, body⟩] }

/-- Collects all applications of a graph. -/
def collect (g : Graph) : Except Error Progress := g.applications.foldlM (Progress.add g) .start

/-- The text of global blocks, each after those it depends on. -/
def supportText (blocks : SupportSet) (emitted : List String) : Except Error String := do
  let order ← (Support.ordered blocks emitted).mapError (·.toError)
  Piece.renderAll (order.flatMap Module.supportPieces)

/-- The text of all global blocks: those of kinds, then those of applications. -/
def globalText (p : Progress) : Except Error String := do
  let kindText ← supportText p.kindBlocks [Module.preludeId]
  let appText ← supportText p.appBlocks (Module.preludeId :: p.kindBlocks.map (·.id))
  return kindText ++ appText

/-- The parts of the text of a module. -/
def parts (g : Graph) (p : Progress) : Except Error Parts := do
  let opening ← Piece.renderAll
    [Module.header (g.bindings g.inputs) (g.bindings g.outputs) p.signatures p.link,
      Module.includes p.link.headers, Module.prelude]
  let globals ← globalText p
  let entry ← Piece.renderAll
    (Module.entryPieces p.plans g.inputs.length g.outputs.length g.tempCount)
  let init ← Piece.renderAll (Module.initPieces p.link.initCode)
  let abi ← Module.abiPiece.render
  return ⟨opening, globals, entry, init, abi⟩

/-- The module of a graph. -/
def assemble (g : Graph) : Except Error Module := do
  let p ← collect g
  let parts ← parts g p
  return {
    source := parts.text
    parts
    link := p.link
    inputs := g.bindings g.inputs
    outputs := g.bindings g.outputs
    applications := p.signatures
    reentrant := p.reentrant
    hasInit := !p.link.initCode.isEmpty
    plans := p.plans
    tempCount := g.tempCount }

end Assembly

end OpFusion
