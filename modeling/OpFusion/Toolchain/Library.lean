/-
  Shared libraries: what a compiler makes of the text of a module, and what the loader finds in it.

  A library exports the version of the native interface, the entry function and the function that runs
  initialisation code, or some of them, and holds the text that it was made from. Its bytes start with a
  mark, and zeros fill them up to a size that is agreed on; shorter bytes are no library.
-/
import OpFusion.Exec.Entry
import OpFusion.Wire

namespace OpFusion

/-- The exports of a library and the text that it was made from. -/
structure Library where
  /-- The version of the native interface, if it is exported. -/
  abi : Option Nat
  entry : Bool
  init : Bool
  /-- The text, unless the library has functions that do nothing. -/
  source : Option String
  deriving DecidableEq

namespace Library

/-- The library of a module. -/
def ofModule (m : Module) : Library := ⟨some Module.abiVersion, true, m.hasInit, some m.source⟩

/-- The mark of a library. -/
def mark : String := "opfusion shared library"

/-- The least number of bytes of libraries, unless something else is agreed on. -/
def usualSize : Nat := 15000

/-- What a library holds, as bytes. -/
def contents (l : Library) : List UInt8 :=
  Wire.string mark ++ Wire.bool l.abi.isSome ++ Wire.u32 (l.abi.getD 0) ++ Wire.bool l.entry ++
    Wire.bool l.init ++ Wire.bool l.source.isSome ++ Wire.string (l.source.getD "")

/-- The bytes of a library, which are not fewer than a size. -/
def encode (size : Nat) (l : Library) : List UInt8 :=
  l.contents ++ List.replicate (size - l.contents.length) 0

/-- Reads a library. -/
def read : Wire.Decoder (String × Library) := fun input => do
  let (found, input) ← Wire.readString input
  let (hasAbi, input) ← Wire.readBool input
  let (abi, input) ← Wire.readNumber 4 input
  let (entry, input) ← Wire.readBool input
  let (init, input) ← Wire.readBool input
  let (hasSource, input) ← Wire.readBool input
  let (source, input) ← Wire.readString input
  return ((found, ⟨if hasAbi then some abi else none, entry, init,
    if hasSource then some source else none⟩), input)

/-- The library that bytes hold, unless they are fewer than a size. -/
def decode? (size : Nat) (bytes : List UInt8) : Option Library :=
  if bytes.length < size then none
  else match read bytes with
    | .ok ((found, l), _) => if found = mark then some l else none
    | .error _ => none

end Library

/-- What the loader finds in the bytes of a library. -/
structure Exports where
  /-- The version of the native interface, if it is exported. -/
  abi : Option Nat
  entry : Bool
  init : Bool
  /-- What the functions run; nothing if they do nothing. -/
  code : Option Code

/-- How the bytes of a library are opened. -/
abbrev Loader : Type := List UInt8 → Option Exports

/-- Opens libraries of at least a size, of texts whose meaning is known. -/
def Library.loader (size : Nat) (meaning : String → Option Code) : Loader := fun bytes => do
  let l ← decode? size bytes
  match l.source with
  | some source =>
    let code ← meaning source
    return ⟨l.abi, l.entry, l.init, some code⟩
  | none => return ⟨l.abi, l.entry, l.init, none⟩

end OpFusion
