/-
  Artifacts: a compiled library with what is needed to load it.

  An artifact is stored as an encoded record. Reading a record for a key accepts only the present
  format, the key itself and a library that is not empty; bytes after the record are ignored.
-/
import OpFusion.Key
import OpFusion.Wire

namespace OpFusion

/-- A compiled library and what is needed to load it. -/
structure Artifact where
  format : Nat
  key : String
  entry : String
  hasInit : Bool
  reentrant : Bool
  library : List UInt8
  deriving DecidableEq

namespace Artifact

/-- The present format. -/
def formatVersion : Nat := 1

/-- The artifact of a library under a key. -/
def new (key : Key) (entry : String) (hasInit reentrant : Bool) (library : List UInt8) : Artifact :=
  ⟨formatVersion, key.hex, entry, hasInit, reentrant, library⟩

/-- The encoded record. -/
def encode (a : Artifact) : List UInt8 :=
  Wire.u32 a.format ++ Wire.string a.key ++ Wire.string a.entry ++ Wire.bool a.hasInit ++
    Wire.bool a.reentrant ++ Wire.bytes a.library

/-- Reads a record. -/
def read : Wire.Decoder Artifact := fun input => do
  let (format, input) ← Wire.readNumber 4 input
  let (key, input) ← Wire.readString input
  let (entry, input) ← Wire.readString input
  let (hasInit, input) ← Wire.readBool input
  let (reentrant, input) ← Wire.readBool input
  let (library, input) ← Wire.readBytes input
  return (⟨format, key, entry, hasInit, reentrant, library⟩, input)

/-- Why bytes are no artifact of a key. -/
inductive Fault where
  /-- The bytes are no record. -/
  | unreadable (fault : Wire.Fault)
  /-- A record of another format. -/
  | wrongFormat (format : Nat)
  /-- A record of another key. -/
  | foreignKey (key : String)
  /-- A record without a library. -/
  | emptyLibrary
  deriving DecidableEq

/-- The wording of a fault. -/
def Fault.message : Fault → String
  | .unreadable fault => fault.message
  | .wrongFormat format =>
    "artifact format " ++ toString format ++ " (expected " ++ toString formatVersion ++ ")"
  | .foreignKey key => "record belongs to key " ++ key
  | .emptyLibrary => "record carries an empty library"

/-- The error of a fault, for a key. -/
def Fault.toError (key : Key) (f : Fault) : Error := .corruption key.hex f.message

/-- The artifact of a key that bytes encode. -/
def decode (key : Key) (bytes : List UInt8) : Except Fault Artifact :=
  match read bytes with
  | .error fault => .error (.unreadable fault)
  | .ok (a, _) =>
    if a.format ≠ formatVersion then .error (.wrongFormat a.format)
    else if a.key ≠ key.hex then .error (.foreignKey a.key)
    else if a.library = [] then .error .emptyLibrary
    else .ok a

end Artifact

end OpFusion
