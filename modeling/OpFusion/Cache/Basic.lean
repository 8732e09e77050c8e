/-
  A cache of built values in which at most one build per key is asked for at a time.

  The cache has the ready values and the table of flights: a flight is a build that a request has asked
  for and whose outcome all requests that find it share. The definitions here are the parts of a
  request that happen at once; how requests overlap is said elsewhere.
-/
import OpFusion.Cache.Recency

namespace OpFusion

/-- How often requests found a value, did not, started a build, and saw it fail. -/
structure CacheStats where
  hits : Nat := 0
  misses : Nat := 0
  builds : Nat := 0
  failures : Nat := 0
  deriving DecidableEq

/-- Ready values, flights and statistics. -/
structure Cache (V : Type) where
  ready : Recency V
  /-- The flight of each key for which there is one. -/
  inflight : List (Key × Nat) := []
  /-- The number of the next flight. -/
  nextFlight : Nat := 0
  stats : CacheStats := {}

namespace Cache

variable {V : Type}

/-- A cache without values. -/
def empty (capacity : Option Nat) : Cache V := { ready := { capacity } }

/-- What a request finds. -/
inductive Lookup (V : Type) where
  /-- A ready value. -/
  | hit (value : V)
  /-- A flight to join, which may be new. -/
  | join (flight : Nat)

/-- Looks a key up: a ready value is used, otherwise the flight of the key is joined. -/
def lookup (c : Cache V) (k : Key) : Lookup V × Cache V :=
  match c.ready.use? k with
  | some (v, ready) => (.hit v, { c with ready, stats := { c.stats with hits := c.stats.hits + 1 } })
  | none =>
    let stats := { c.stats with misses := c.stats.misses + 1 }
    match c.inflight.lookup k with
    | some f => (.join f, { c with stats })
    | none =>
      (.join c.nextFlight,
        { c with stats, inflight := (k, c.nextFlight) :: c.inflight, nextFlight := c.nextFlight + 1 })

/-- Counts a build that starts. -/
def begin (c : Cache V) : Cache V := { c with stats := { c.stats with builds := c.stats.builds + 1 } }

/-- Forgets a flight, unless the key has another one by now. -/
def dropFlight (c : Cache V) (k : Key) (flight : Nat) : Cache V :=
  if c.inflight.lookup k = some flight then
    { c with inflight := Table.erase c.inflight k }
  else c

/-- Makes the outcome of a flight known: a value becomes ready, a failure is counted, and the flight is
over. -/
def publish (c : Cache V) (k : Key) (flight : Nat) (outcome : Except Error V) : Cache V :=
  match outcome with
  | .ok v => { c with ready := c.ready.put k v }.dropFlight k flight
  | .error _ => { c with stats := { c.stats with failures := c.stats.failures + 1 } }.dropFlight k flight

/-- The cache without the ready value of a key. -/
def invalidate (c : Cache V) (k : Key) : Cache V := { c with ready := c.ready.erase k }

/-- The cache without ready values. -/
def clear (c : Cache V) : Cache V := { c with ready := c.ready.clear }

/-- The number of flights. -/
def inFlight (c : Cache V) : Nat := c.inflight.length

end Cache

end OpFusion
