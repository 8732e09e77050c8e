/-
  A store of artifacts: bytes under keys, in memory or in files.
-/
import OpFusion.Store.Disk
import OpFusion.Store.Memory

namespace OpFusion

/-- A store in memory or in files. -/
inductive Store where
  | memory (store : MemoryStore)
  | disk (store : DiskStore)

namespace Store

/-- The bytes under a key. -/
def read (fs : Files) (k : Key) : Store → Except Error (Option (List UInt8))
  | memory s => .ok (s.read k)
  | disk d => d.read fs k

/-- Whether there are bytes under a key. -/
def contains (fs : Files) (k : Key) : Store → Bool
  | memory s => s.contains k
  | disk d => d.contains fs k

/-- Writes bytes under a key. -/
def write (fs : Files) (k : Key) (bytes : List UInt8) : Store → Except Error Unit × Store × Files
  | memory s => (.ok (), memory (s.write k bytes), fs)
  | disk d =>
    let (result, fs) := d.write none fs k bytes
    (result, disk d, fs)

/-- Removes the bytes under a key; says whether there were any. -/
def remove (fs : Files) (k : Key) : Store → Except Error Bool × Store × Files
  | memory s => (.ok (s.contains k), memory (s.remove k), fs)
  | disk d =>
    let (result, fs) := d.remove fs k
    (result, disk d, fs)

/-- The number of entries in memory. -/
def length : Store → Nat
  | memory s => s.length
  | disk _ => 0

end Store

end OpFusion
