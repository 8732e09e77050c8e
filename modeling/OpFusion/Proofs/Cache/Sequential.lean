/-
  Requests that nothing overlaps.

  Between such requests no flight is under way (`Quiet`). A request is answered at once if its token is
  raised or its value is ready (`ask_raised`, `ask_hit`), and otherwise its builder runs if there is no
  flight for its key (`ask_miss`); what the builder returns is the answer, and becomes ready if it is a value
  (`reply_opened`, `ready_closed`).
-/
import OpFusion.Cache.Request
import OpFusion.Proofs.Cache.Basic

namespace OpFusion.Flight.State

variable {V : Type} {s : State V} {k : Key}

/-- No flight is under way. -/
structure Quiet (s : State V) : Prop where
  inflight : s.cache.inflight = []
  next : s.cache.nextFlight = s.cells.length

theorem quiet_empty (capacity : Option Nat) : (empty capacity : State V).Quiet := ⟨rfl, rfl⟩

theorem ask_raised (s : State V) (k : Key) :
    s.ask k true = (s.callers.length,
      { s with callers := s.callers ++ [⟨k, true, .returned (.error .cancelled), none, false⟩] }) := by
  simp [ask, run, step?, arrive]

theorem ask_hit {v : V} {ready : Recency V} (h : s.cache.ready.use? k = some (v, ready)) :
    s.ask k false = (s.callers.length,
      { s with
        cache := { s.cache with ready, stats := { s.cache.stats with hits := s.cache.stats.hits + 1 } }
        callers := s.callers ++ [⟨k, false, .returned (.ok v), none, false⟩] }) := by
  simp [ask, run, step?, arrive, lookup, Cache.lookup, h, setPhase, setCaller]

/-- The state in which the builder of a new request runs. -/
def opened (s : State V) (k : Key) : State V where
  cache := { s.cache with
    inflight := (k, s.cache.nextFlight) :: s.cache.inflight
    nextFlight := s.cache.nextFlight + 1
    stats := { s.cache.stats with
      misses := s.cache.stats.misses + 1
      builds := s.cache.stats.builds + 1 } }
  cells := s.cells ++ [.running]
  callers := s.callers ++ [⟨k, false, .building s.cache.nextFlight, some s.cache.nextFlight, true⟩]

theorem ask_miss (hnext : s.cache.nextFlight = s.cells.length)
    (hflight : s.cache.inflight.lookup k = none) (h : s.cache.ready.use? k = none) :
    s.ask k false = (s.callers.length, s.opened k) := by
  simp [ask, run, step?, arrive, lookup, Cache.lookup, h, hflight, hnext, setCaller, start,
    Cache.begin, setCell, opened]

theorem asked_opened (s : State V) (k : Key) : (s.opened k).asked s.callers.length = .building := by
  simp [asked, opened, Phase.asked]

/-- The state in which the builder of a new request has returned and the outcome is published. -/
def closed (s : State V) (k : Key) (raised : Bool) (outcome : Except Error V) : State V where
  cache := (s.opened k).cache.publish k s.cache.nextFlight outcome
  cells := s.cells ++ [.settled outcome]
  callers := s.callers ++
    [⟨k, raised, .returned outcome, some s.cache.nextFlight, true⟩]

/-- What becomes of a request whose builder returns. -/
theorem reply_opened (hs : s.Quiet) (k : Key) (raises : Bool) (result : Except Error V) :
    (s.opened k).reply s.callers.length ⟨raises, some result⟩ =
      s.closed k raises (if raises then .error .cancelled else result) := by
  cases raises <;>
    simp [reply, run, step?, opened, closed, finish, setCaller, setPhase, setCell, hs.next]

theorem inflight_closed (hs : s.Quiet) (k : Key) (raised : Bool) (outcome : Except Error V) :
    (s.closed k raised outcome).cache.inflight = [] ∧
      (s.closed k raised outcome).cache.nextFlight = s.cache.nextFlight + 1 := by
  cases outcome <;> simp [closed, opened, Cache.publish, Cache.dropFlight, Table.erase, hs.inflight]

theorem quiet_closed (hs : s.Quiet) (k : Key) (raised : Bool) (outcome : Except Error V) :
    (s.closed k raised outcome).Quiet := by
  obtain ⟨hinflight, hnext⟩ := inflight_closed hs k raised outcome
  refine ⟨hinflight, hnext.trans ?_⟩
  simp [closed, hs.next]

theorem ready_closed (s : State V) (k : Key) (raised : Bool) (outcome : Except Error V) :
    (s.closed k raised outcome).cache.ready =
      match outcome with
      | .ok v => s.cache.ready.put k v
      | .error _ => s.cache.ready :=
  Cache.ready_publish (s.opened k).cache k s.cache.nextFlight outcome

theorem answer_closed (s : State V) (k : Key) (raised : Bool) (outcome : Except Error V) :
    (s.closed k raised outcome).answer s.callers.length = outcome := by
  simp [answer, asked, closed, Phase.asked]

end OpFusion.Flight.State
