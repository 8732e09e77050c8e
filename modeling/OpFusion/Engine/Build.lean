/-
  Building a module that is not in memory.

  A module that is in the store is loaded from there. Otherwise it is compiled, stored and loaded. A
  stored artifact that cannot be used is removed, and the module is compiled again; a store that fails
  does not make a build fail.
-/
import OpFusion.Engine.Attribution
import OpFusion.Engine.Storage
import OpFusion.Toolchain.Basic
import OpFusion.Toolchain.Job

namespace OpFusion

/-- The tools of an engine. -/
structure Tools where
  toolchain : Toolchain
  loader : Loader

namespace Engine

/-- Loads an artifact for a module. -/
def load (e : Engine) (loader : Loader) (m : Module) (k : Key) (a : Artifact) :
    Except Error Loaded × Engine :=
  match Loaded.openArtifact loader a with
  | .error fault => (.error fault.toError, e)
  | .ok (code, statics) =>
    (.ok ⟨k, m.inputDescs, m.outputDescs, a, code, e.units.length⟩,
      { e with units := e.units ++ [statics] })

/-- Loads the artifact that bytes encode, or says why they are unusable. -/
def loadBytes (e : Engine) (loader : Loader) (m : Module) (k : Key) (bytes : List UInt8) :
    Except Error Loaded × Engine :=
  match Artifact.decode k bytes with
  | .error fault => (.error (fault.toError k), e)
  | .ok a =>
    if a.entry ≠ Module.entrySymbol then
      (.error (.corruption k.hex ("unexpected entry symbol '" ++ a.entry ++ "'")), e)
    else
      let (result, e) := e.load loader m k a
      (result.mapError fun err => .corruption k.hex err.message, e)

/-- Forgets an unusable entry of the store. -/
def discard (e : Engine) (k : Key) (reason : Error) : Engine :=
  let e := { e with corruptEntries := e.corruptEntries + 1 }
  let e := e.note .warn "discarding corrupt cache entry" (some reason.message)
  match e.removeStored k with
  | (.ok _, e) => e
  | (.error err, e) => e.note .warn "failed to remove corrupt cache entry" (some err.message)

/-- Loads a module from the store. -/
def loadStored (e : Engine) (loader : Loader) (m : Module) (k : Key) : Option Loaded × Engine :=
  match e.readStore k with
  | .error err => (none, e.note .warn "artifact store read failed" (some err.message))
  | .ok none => (none, e)
  | .ok (some bytes) =>
    match e.loadBytes loader m k bytes with
    | (.ok loaded, e) =>
      (some loaded, { e with storeHits := e.storeHits + 1 }.note .debug "artifact store hit")
    | (.error err, e) => (none, e.discard k err)

/-- The directory for the texts of modules. -/
def sourcesDir (e : Engine) : String := Path.join e.config.cacheDir "sources"

/-- The path for the text of a module. -/
def sourcePath (e : Engine) (k : Key) : String := Path.join e.sourcesDir (k.hex ++ ".c")

/-- Keeps the text of a module next to the artifacts. -/
def keepSource (e : Engine) (m : Module) (k : Key) : Engine :=
  let (made, files) := e.files.makeDirectories e.sourcesDir
  let e := { e with files }
  match made.bind fun _ => files.write (e.sourcePath k) (Utf8.bytesOf m.source) with
  | .error fault => e.note .warn "failed to keep generated source" (some fault.message)
  | .ok files => { e with files }

/-- The path at which a library is expected. -/
def outputPath : String := "<build>/module." ++ Job.libraryExtension

/-- Compiles a module; says whether the token was raised meanwhile. -/
def compileArtifact (e : Engine) (t : Toolchain) (m : Module) (k : Key) :
    Bool × Except Error Artifact × Engine :=
  let e := if e.config.keepSources then e.keepSource m k else e
  let e := { e with toolchainBuilds := e.toolchainBuilds + 1 }
  let b := t.build m k
  match b.result with
  | .error err => (b.raises, .error (Attribution.blame m err), e)
  | .ok none => (b.raises, .error (.io ("read " ++ outputPath) Files.Fault.notFound.message), e)
  | .ok (some library) =>
    (b.raises, .ok (.new k Module.entrySymbol m.hasInit m.reentrant library),
      e.note .info "compiled module")

/-- Stores an artifact. -/
def persist (e : Engine) (k : Key) (a : Artifact) : Engine :=
  match e.writeStore k a.encode with
  | (.ok _, e) => e
  | (.error err, e) => e.note .warn "failed to persist compiled module" (some err.message)

/-- Builds a module that is not in memory. -/
def build (e : Engine) (tools : Tools) (m : Module) (k : Key) : Flight.Verdict Loaded × Engine :=
  match (e.note .debug "module cache miss").loadStored tools.loader m k with
  | (some loaded, e) => ({ outcome := some (.ok loaded) }, e)
  | (none, e) =>
    match e.compileArtifact tools.toolchain m k with
    | (raises, .error err, e) => ({ raises, outcome := some (.error err) }, e)
    | (raises, .ok a, e) =>
      let (result, e) := (e.persist k a).load tools.loader m k a
      ({ raises, outcome := some result }, e)

end Engine

end OpFusion
