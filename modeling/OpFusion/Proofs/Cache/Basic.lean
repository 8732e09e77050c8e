/-
  What the parts of a request do to a cache: which values are ready after them, and which flights there
  are.
-/
import Mathlib
import OpFusion.Cache.Basic

namespace OpFusion

namespace Recency

variable {V : Type}

/-- Values that are found after a value was put in place are that value or were there before. -/
theorem peek_put {r : Recency V} {k j : Key} {v w : V} (h : (r.put k v).peek j = some w) :
    (j = k ∧ w = v) ∨ r.peek j = some w := by
  have htrim : ∀ (capacity : Option Nat) (entries : List (Key × V)),
      (trim capacity entries).lookup j = some w → entries.lookup j = some w := by
    intro capacity entries h
    cases capacity with
    | none => exact h
    | some n =>
      rw [trim] at h
      have hprefix := List.take_append_drop n entries
      rw [← hprefix, List.lookup_append, h]
      rfl
  have hinsert := htrim _ _ h
  rw [Table.lookup_insert] at hinsert
  split at hinsert
  · next hj => exact Or.inl ⟨hj, (Option.some.inj hinsert).symm⟩
  · exact Or.inr hinsert

theorem peek_use {r r' : Recency V} {k j : Key} {v : V} (h : r.use? k = some (v, r')) :
    r.peek k = some v ∧ r'.peek j = r.peek j := by
  obtain ⟨v', hv, heq⟩ := Option.map_eq_some_iff.1 h
  cases heq
  refine ⟨hv, ?_⟩
  show List.lookup j (Table.insert r.entries k v) = r.peek j
  rw [Table.lookup_insert]
  split
  · next hj => rw [hj, hv]
  · rfl

theorem peek_erase (r : Recency V) (k j : Key) :
    (r.erase k).peek j = if j = k then none else r.peek j := Table.lookup_erase r.entries k j

end Recency

namespace Cache

variable {V : Type}

/-- The cache after a value was found. -/
def hit (c : Cache V) (ready : Recency V) : Cache V :=
  { c with ready, stats := { c.stats with hits := c.stats.hits + 1 } }

/-- The cache after no value was found. -/
def miss (c : Cache V) : Cache V := { c with stats := { c.stats with misses := c.stats.misses + 1 } }

/-- The cache with a new flight for a key. -/
def create (c : Cache V) (k : Key) : Cache V :=
  { c with inflight := (k, c.nextFlight) :: c.inflight, nextFlight := c.nextFlight + 1 }

theorem lookup_dropFlight (c : Cache V) (k j : Key) (flight : Nat) :
    (c.dropFlight k flight).inflight.lookup j =
      if j = k ∧ c.inflight.lookup k = some flight then none else c.inflight.lookup j := by
  rw [dropFlight]
  split
  · next h => simp only [Table.lookup_erase, h, and_true]
  · next h => simp only [h, and_false, if_false]

theorem inflight_publish (c : Cache V) (k : Key) (flight : Nat) (outcome : Except Error V) :
    (c.publish k flight outcome).inflight = (c.dropFlight k flight).inflight := by
  cases outcome <;> simp only [publish, dropFlight] <;> split <;> rfl

theorem nextFlight_dropFlight (c : Cache V) (k : Key) (flight : Nat) :
    (c.dropFlight k flight).nextFlight = c.nextFlight := by
  rw [dropFlight]
  split <;> rfl

theorem nextFlight_publish (c : Cache V) (k : Key) (flight : Nat) (outcome : Except Error V) :
    (c.publish k flight outcome).nextFlight = c.nextFlight := by
  cases outcome <;> exact nextFlight_dropFlight _ k flight

theorem ready_dropFlight (c : Cache V) (k : Key) (flight : Nat) :
    (c.dropFlight k flight).ready = c.ready := by
  rw [dropFlight]
  split <;> rfl

theorem ready_publish (c : Cache V) (k : Key) (flight : Nat) (outcome : Except Error V) :
    (c.publish k flight outcome).ready =
      match outcome with
      | .ok v => c.ready.put k v
      | .error _ => c.ready := by
  cases outcome <;> exact ready_dropFlight _ k flight

theorem stats_dropFlight (c : Cache V) (k : Key) (flight : Nat) :
    (c.dropFlight k flight).stats = c.stats := by
  rw [dropFlight]
  split <;> rfl

theorem stats_publish (c : Cache V) (k : Key) (flight : Nat) (outcome : Except Error V) :
    (c.publish k flight outcome).stats =
      match outcome with
      | .ok _ => c.stats
      | .error _ => { c.stats with failures := c.stats.failures + 1 } := by
  cases outcome <;> exact stats_dropFlight _ k flight

theorem lookup_create (c : Cache V) (k j : Key) :
    (c.create k).inflight.lookup j = if j = k then some c.nextFlight else c.inflight.lookup j :=
  Table.lookup_pair c.inflight k j c.nextFlight

end Cache

end OpFusion
