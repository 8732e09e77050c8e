/-
  The key of a module.

  A module is addressed by the digest of a manifest: the native interface, the compiler, the inputs and
  outputs, the signatures, the requirements, and whether calls may overlap. If some application has no
  version, the whole text of the module is hashed too.
-/
import OpFusion.Digest.Blake3
import OpFusion.Key
import OpFusion.Module.Assembly
import OpFusion.Wire

namespace OpFusion

/-- What is known of a compiler: its name, its version and the flags it is run with. -/
structure Identity where
  compiler : String
  version : String
  flags : List String
  deriving DecidableEq

namespace Manifest

/-- The text that starts every hashed input. -/
def domain : String := "fusejit:module-key:v1"

/-- The version of the manifest. -/
def schema : Nat := 1

/-- The native interface: its version, the width of a pointer, the size of a buffer's header, the
processor and the system. -/
def abiBytes : List UInt8 :=
  Wire.u32 Module.abiVersion ++ Wire.u32 64 ++ Wire.u32 40 ++ Wire.string "x86_64" ++
    Wire.string "linux"

/-- A compiler. -/
def identityBytes (t : Identity) : List UInt8 :=
  Wire.string t.compiler ++ Wire.string t.version ++ Wire.list Wire.string t.flags

/-- A variable with its description. -/
def bindingBytes (b : Binding) : List UInt8 :=
  Wire.u64 b.var ++ Wire.u32 b.desc.dtype.tag ++ Wire.u64 b.desc.rank

/-- The version of a kind. -/
def versionBytes (v : Version) : List UInt8 := Wire.list (fun part => Wire.u32 part.toNat) v

/-- The signature of an application. -/
def signatureBytes (s : Signature) : List UInt8 :=
  Wire.string s.name ++ Wire.string s.kind ++ Wire.string s.params ++
    Wire.option versionBytes s.version ++ Wire.list bindingBytes s.inputs ++
    Wire.list bindingBytes s.outputs

/-- Requirements. -/
def linkBytes (l : Link) : List UInt8 :=
  Wire.list Wire.string l.headers ++ Wire.list Wire.string l.libraries ++
    Wire.list Wire.string l.libDirs ++ Wire.list Wire.string l.includeDirs ++
    Wire.list Wire.string l.compileFlags ++ Wire.list Wire.string l.linkFlags ++
    Wire.list Wire.string l.initCode

/-- The manifest of a module for a compiler. -/
def encode (m : Module) (t : Identity) : List UInt8 :=
  Wire.u32 schema ++ abiBytes ++ identityBytes t ++ Wire.list bindingBytes m.inputs ++
    Wire.list bindingBytes m.outputs ++ Wire.list signatureBytes m.applications ++
    linkBytes m.link ++ Wire.bool m.reentrant

/-- What is hashed besides the manifest: the text of a module that is not fully versioned. -/
def sourceBytes (m : Module) : List UInt8 :=
  if m.isVersioned then [0] else 1 :: Utf8.bytesOf m.source

/-- The hashed input of a module for a compiler. -/
def material (m : Module) (t : Identity) : List UInt8 :=
  Utf8.bytesOf domain ++ Wire.u64 (encode m t).length ++ encode m t ++ sourceBytes m

end Manifest

/-- The key of a module for a compiler. -/
def Module.key (m : Module) (t : Identity) : Key :=
  ⟨Blake3.digest (Manifest.material m t), Blake3.length_digest _⟩

end OpFusion
