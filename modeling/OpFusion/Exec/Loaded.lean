/-
  Loaded modules: what is found in an artifact, and whether it can be used.

  The library of an artifact has to export the native interface in the right version, the entry function
  and, if the artifact says so, the function that runs initialisation code, which has to succeed.
-/
import OpFusion.Exec.Init
import OpFusion.Store.Record
import OpFusion.Toolchain.Library

namespace OpFusion

/-- A loaded module. Its variables are kept by whoever loaded it, under a number. -/
structure Loaded where
  key : Key
  inputs : List VarDesc
  outputs : List VarDesc
  /-- What it was loaded from. -/
  artifact : Artifact
  /-- What it runs; nothing if its functions do nothing. -/
  code : Option Code
  /-- The number of its variables. -/
  unit : Nat

namespace Loaded

/-- Whether calls may overlap. -/
def reentrant (m : Loaded) : Bool := m.artifact.reentrant

/-- Why an artifact cannot be loaded. -/
inductive Fault where
  | notLibrary
  | noAbi
  | wrongAbi (version : Nat)
  | noEntry (entry : String)
  | noInit
  | initFailed (message : String)
  deriving DecidableEq

/-- The wording of a fault. -/
def Fault.message : Fault → String
  | .notLibrary => "cannot load"
  | .noAbi => "missing '" ++ Module.abiSymbol ++ "'"
  | .wrongAbi version =>
    "module ABI version " ++ toString version ++ " does not match " ++ toString Module.abiVersion
  | .noEntry entry => "missing entry '" ++ entry ++ "'"
  | .noInit => "missing '" ++ Module.initSymbol ++ "'"
  | .initFailed message => "module initialization failed: " ++ message

/-- The error of a fault. -/
def Fault.toError (f : Fault) : Error := .load f.message

/-- What a library runs once its exports are checked, and the variables that initialisation leaves. -/
def start (x : Exports) (a : Artifact) : Except Fault (Option Code × Statics) :=
  match x.abi with
  | none => .error .noAbi
  | some version =>
    if version ≠ Module.abiVersion then .error (.wrongAbi version)
    else if !(x.entry && a.entry = Module.entrySymbol) then .error (.noEntry a.entry)
    else if !a.hasInit then .ok (x.code, x.code.elim [] (·.program.statics))
    else if !x.init then .error .noInit
    else match x.code.elim (.ok []) fun code => Init.outcome code.program with
      | .ok statics => .ok (x.code, statics)
      | .error message => .error (.initFailed message)

/-- Opens the library of an artifact. -/
def openArtifact (loader : Loader) (a : Artifact) : Except Fault (Option Code × Statics) :=
  match loader a.library with
  | none => .error .notLibrary
  | some x => start x a

/-- The module in displays of data. -/
def debug (m : Loaded) : String :=
  "CompiledModule \x7b key: " ++ m.key.debug ++ ", inputs: " ++
    Text.bracketed (m.inputs.map (·.debug)) ++ ", outputs: " ++
    Text.bracketed (m.outputs.map (·.debug)) ++ ", reentrant: " ++
    (if m.reentrant then "true" else "false") ++ " \x7d"

end Loaded

end OpFusion
