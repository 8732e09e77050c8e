/-
  Toolchains: what makes a library of the text of a module.
-/
import OpFusion.Key
import OpFusion.Module.Key
import OpFusion.Toolchain.Library

namespace OpFusion

/-- What came of a job. -/
structure Build where
  /-- Whether the token of the request was raised meanwhile. -/
  raises : Bool := false
  /-- The bytes of the library, if one was made; or why the job failed. -/
  result : Except Error (Option (List UInt8))

/-- A compiler and linker. -/
structure Toolchain where
  /-- All that bears on the libraries it makes. -/
  identity : Except Error Identity
  /-- Makes the library of a module. -/
  build : Module → Key → Build

/-- How a toolchain is told to go wrong. -/
structure Toolchain.Mode where
  /-- The identity cannot be found out. -/
  identityError : Option Error := none
  /-- The compiler rejects every module with this text. -/
  diagnostics : Option String := none
  /-- Every job fails so. -/
  error : Option Error := none
  /-- Jobs succeed without a library. -/
  noOutput : Bool := false
  /-- The library is these bytes. -/
  garbage : Option (List UInt8) := none
  /-- The token is raised, and the job gives up. -/
  cancelBefore : Bool := false
  /-- The library is this one. -/
  library : Option Library := none
  /-- The token is raised when the job is done. -/
  cancelAfter : Bool := false
  /-- The least number of bytes of a library. -/
  librarySize : Nat := Library.usualSize

/-- What comes of a job in a mode. -/
def Toolchain.Mode.build (mode : Toolchain.Mode) (m : Module) (k : Key) : Build :=
  match mode.diagnostics, mode.error with
  | some text, _ => { result := .error (.compile k.hex text) }
  | none, some e => { result := .error e }
  | none, none =>
    if mode.noOutput then { result := .ok none }
    else match mode.garbage with
      | some bytes => { result := .ok (some bytes) }
      | none =>
        if mode.cancelBefore then { raises := true, result := .error .cancelled }
        else
          let library := mode.library.getD (Library.ofModule m)
          { raises := mode.cancelAfter, result := .ok (some (library.encode mode.librarySize)) }

/-- A toolchain in a mode. -/
def Toolchain.scripted (identity : Identity) (mode : Toolchain.Mode) : Toolchain where
  identity := mode.identityError.elim (.ok identity) .error
  build := mode.build

end OpFusion
