/-
  Bytes under keys, held in files.

  The bytes of a key are in `<root>/<first two digits>/<all digits>.artifact`. A write fills a temporary
  file in the same directory and then moves it to its place, so that the place holds the old bytes or
  the new ones and never a part of them. Each stage of a write may fail, also after some directories were
  made; a temporary file does not outlive the write.
-/
import OpFusion.Files
import OpFusion.Key

namespace OpFusion

/-- A directory for the bytes of all keys. -/
structure DiskStore where
  root : String

namespace DiskStore

/-- The path of the directory of a key. -/
def dirPath (d : DiskStore) (k : Key) : String := Path.join d.root k.shard

/-- The name of the file of a key. -/
def fileName (k : Key) : String := k.hex ++ ".artifact"

/-- The path of the file of a key. -/
def path (d : DiskStore) (k : Key) : String := Path.join (d.dirPath k) (fileName k)

/-- The error of a refused operation. -/
def refused (what path : String) (fault : Files.Fault) : Error :=
  .io (what ++ " " ++ path) fault.message

/-- The bytes under a key. -/
def read (d : DiskStore) (fs : Files) (k : Key) : Except Error (Option (List UInt8)) :=
  match fs.read (d.path k) with
  | .ok bytes => .ok (some bytes)
  | .error .notFound => .ok none
  | .error fault => .error (refused "read" (d.path k) fault)

/-- Whether there are bytes under a key. -/
def contains (d : DiskStore) (fs : Files) (k : Key) : Bool := fs.isFile (d.path k)

/-- Removes the bytes under a key; says whether there were any. -/
def remove (d : DiskStore) (fs : Files) (k : Key) : Except Error Bool × Files :=
  match fs.remove (d.path k) with
  | .ok fs => (.ok true, fs)
  | .error .notFound => (.ok false, fs)
  | .error fault => (.error (refused "remove" (d.path k) fault), fs)

/-- The stages of a write. -/
inductive Stage where
  | makeDirectory
  | makeTemporary
  | fill
  | sync
  | rename
  deriving DecidableEq

/-- A stage of a write that fails, and why. -/
structure Trouble where
  stage : Stage
  fault : Files.Fault
  /-- How many names lead to directories before one of them cannot be made. -/
  made : Nat := 0

/-- The result of a stage, which fails if it is in trouble. -/
def attempt (trouble : Option Trouble) (stage : Stage) (result : Except Files.Fault Files) :
    Except Files.Fault Files :=
  match trouble with
  | some t => if t.stage = stage then .error t.fault else result
  | none => result

/-- Makes the directory of a key. -/
def makeDirectory (d : DiskStore) (trouble : Option Trouble) (fs : Files) (k : Key) :
    Except Files.Fault Unit × Files :=
  match trouble with
  | some ⟨.makeDirectory, fault, made⟩ =>
    let names := (Path.names (d.dirPath k)).take made
    (.error fault, (fs.ensureDirectories (Path.start (d.dirPath k)) names.reverse).2)
  | _ => fs.makeDirectories (d.dirPath k)

/-- Writes bytes under a key. -/
def write (d : DiskStore) (trouble : Option Trouble) (fs : Files) (k : Key) (bytes : List UInt8) :
    Except Error Unit × Files :=
  match d.makeDirectory trouble fs k with
  | (.error fault, fs) => (.error (refused "create" (d.dirPath k) fault), fs)
  | (.ok _, fs) =>
    let temporary := Path.join (d.dirPath k) (fs.freshName (d.dirPath k))
    match attempt trouble .makeTemporary (fs.write temporary []) with
    | .error fault => (.error (refused "create temp file in" (d.dirPath k) fault), fs)
    | .ok fs =>
      let filled := do
        let fs ← attempt trouble .fill (fs.write temporary bytes)
        attempt trouble .sync (.ok fs)
      match filled with
      | .error fault => (.error (refused "write" temporary fault), fs.discard temporary)
      | .ok fs =>
        match attempt trouble .rename (fs.rename temporary (d.path k)) with
        | .error fault => (.error (refused "persist" (d.path k) fault), fs.discard temporary)
        | .ok fs => (.ok (), fs)

end DiskStore

end OpFusion
