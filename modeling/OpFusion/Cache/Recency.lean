/-
  A bounded table that drops the entry that was used longest ago.

  Entries are listed from the one used last. Reading with `use?` and writing with `put` make an entry
  the last used one; `peek` and `contains` do not. There is no table for more entries than memory can
  address.
-/
import OpFusion.Key
import OpFusion.Table

namespace OpFusion

/-- Entries from the last used one on; at most `capacity` of them, if there is one. -/
structure Recency (V : Type) where
  capacity : Option Nat
  entries : List (Key × V) := []

namespace Recency

variable {V : Type}

/-- The value under a key. -/
def peek (r : Recency V) (k : Key) : Option V := r.entries.lookup k

/-- Whether there is a value under a key. -/
def contains (r : Recency V) (k : Key) : Bool := (r.peek k).isSome

/-- The table without a key. -/
def erase (r : Recency V) (k : Key) : Recency V := { r with entries := Table.erase r.entries k }

/-- The table without entries. -/
def clear (r : Recency V) : Recency V := { r with entries := [] }

/-- The entries that the capacity allows. -/
def trim (capacity : Option Nat) (entries : List (Key × V)) : List (Key × V) :=
  match capacity with
  | some n => entries.take n
  | none => entries

/-- The table with a value as the last used one. -/
def put (r : Recency V) (k : Key) (v : V) : Recency V :=
  { r with entries := trim r.capacity (Table.insert r.entries k v) }

/-- The value under a key, and the table in which it is the last used one. -/
def use? (r : Recency V) (k : Key) : Option (V × Recency V) :=
  (r.peek k).map fun v => (v, { r with entries := Table.insert r.entries k v })

/-- The number of entries. -/
def length (r : Recency V) : Nat := r.entries.length

/-- The number of slots of a table for so many entries: a power of two, of which an eighth stays
free. -/
def slots (capacity : Nat) : Nat := (capacity * 8 / 7).nextPowerOfTwo

/-- Whether a table for so many entries can be laid out in memory, with two words for each slot. -/
def isPossible (capacity : Option Nat) : Bool := capacity.all fun n => slots n * 16 < 0x8000000000000000

end Recency

end OpFusion
