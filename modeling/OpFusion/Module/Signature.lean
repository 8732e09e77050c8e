/-
  Signatures of applications: what of an application tells its code.
-/
import OpFusion.Kind.Basic

namespace OpFusion

/-- An application by its name, the identity of its kind and the variables it joins. -/
structure Signature where
  name : String
  kind : String
  params : String
  version : Option Version
  inputs : List Binding
  outputs : List Binding
  deriving DecidableEq

namespace Signature

/-- Whether the kind has a version that is not empty. -/
def isVersioned (s : Signature) : Bool :=
  match s.version with
  | some (_ :: _) => true
  | _ => false

/-- The version with points between its numbers. -/
def versionText (s : Signature) : String :=
  match s.version with
  | some (part :: parts) => ".".intercalate ((part :: parts).map fun p => toString p.toNat)
  | _ => "unversioned"

/-- Bindings with a comma and a blank between them. -/
def bindingsText (bindings : List Binding) : String := ", ".intercalate (bindings.map (·.text))

/-- The signature as the header of a module shows it. -/
def text (s : Signature) : String :=
  s.name ++ ": " ++ s.kind ++ "(" ++ s.params ++ ") v" ++ s.versionText ++ " [" ++
    bindingsText s.inputs ++ "] -> [" ++ bindingsText s.outputs ++ "]"

end Signature

end OpFusion
