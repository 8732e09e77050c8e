/-
  Kinds that are given by their fragments, as data.
-/
import OpFusion.Kind.Basic

namespace OpFusion

/-- A global block of an application. An `owned` block has an identity and a symbol of its
application, for which its code writes `$sym`. -/
structure ScriptedBlock where
  block : SupportBlock
  owned : Bool := false

/-- The block for an application. -/
def ScriptedBlock.resolve (b : ScriptedBlock) (c : Context) : SupportBlock :=
  if b.owned then
    let symbol := c.symbol b.block.id
    { id := symbol
      code := String.ofList
        (Text.replaceAll "$sym".toList symbol.toList b.block.code.toList)
      symbols := b.block.symbols ++ [symbol]
      after := b.block.after }
  else b.block

/-- The fragments of a kind, and the reasons for which it rejects applications. -/
structure Script where
  name : String
  params : String := ""
  version : Option Version := some [1, 0]
  arity : Option (Nat × Nat) := none
  checkError : Option String := none
  appError : Option String := none
  extentsError : Option String := none
  bodyError : Option String := none
  kindBlocks : List SupportBlock := []
  appBlocks : List ScriptedBlock := []
  /-- The extents of each output; without them an output has the extents of the first input. -/
  extents : Option (List (List String)) := none
  body : Body
  link : Link := {}
  reentrant : Bool := true

namespace Script

/-- A result, unless there is a reason to reject. -/
def orReject {α : Type} (error : Option String) (result : α) : Except Refusal α :=
  match error with
  | some reason => .error (.reject reason)
  | none => .ok result

/-- The extents of an output. -/
def extentsOf (s : Script) (c : Context) (index : Nat) : List Extent :=
  match s.extents with
  | some lists => (lists.getD index []).map Extent.ofText
  | none => Extent.like 0 (c.outputRank index)

/-- The kind with the fragments of a script. -/
def toKind (s : Script) : OpKind where
  name := s.name
  params := s.params
  version := s.version
  check c := do
    match s.arity with
    | some (inputs, outputs) => c.expectArity inputs outputs
    | none => .ok ()
    orReject s.checkError ()
  kindBlocks := s.kindBlocks
  appBlocks c := orReject s.appError (s.appBlocks.map (·.resolve c))
  extents c index := orReject s.extentsError (s.extentsOf c index)
  body _ := orReject s.bodyError s.body
  link := s.link
  reentrant := s.reentrant

/-- A kind with nothing but a name. -/
def bare : Script where
  name := "bare"
  version := none
  extents := some []
  body := .code ""

end Script

end OpFusion
