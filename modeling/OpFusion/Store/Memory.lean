/-
  Bytes under keys, held in memory.
-/
import OpFusion.Key
import OpFusion.Table

namespace OpFusion

/-- Bytes under keys. -/
structure MemoryStore where
  entries : List (Key × List UInt8) := []

namespace MemoryStore

/-- The bytes under a key. -/
def read (s : MemoryStore) (k : Key) : Option (List UInt8) := s.entries.lookup k

/-- Whether there are bytes under a key. -/
def contains (s : MemoryStore) (k : Key) : Bool := (s.read k).isSome

/-- The store without a key. -/
def remove (s : MemoryStore) (k : Key) : MemoryStore := ⟨Table.erase s.entries k⟩

/-- The store with bytes under a key. -/
def write (s : MemoryStore) (k : Key) (bytes : List UInt8) : MemoryStore :=
  ⟨Table.insert s.entries k bytes⟩

/-- The number of entries. -/
def length (s : MemoryStore) : Nat := s.entries.length

theorem read_write (s : MemoryStore) (k j : Key) (bytes : List UInt8) :
    (s.write k bytes).read j = if j = k then some bytes else s.read j :=
  Table.lookup_insert s.entries k j bytes

theorem read_remove (s : MemoryStore) (k j : Key) :
    (s.remove k).read j = if j = k then none else s.read j :=
  Table.lookup_erase s.entries k j

end MemoryStore

end OpFusion
