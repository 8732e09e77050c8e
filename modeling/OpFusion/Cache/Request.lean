/-
  Requests to a cache that nothing overlaps, and requests that arrive together.

  A request that nothing overlaps is two runs of steps with the work of its builder between them:
  `ask` takes it to its answer or to its builder, `reply` from the builder's return to the answer.
-/
import OpFusion.Cache.Flight

namespace OpFusion.Flight

/-- What a builder does. -/
structure Verdict (V : Type) where
  /-- Whether it raises the token of its request. -/
  raises : Bool := false
  /-- What it returns; nothing if it unwinds. -/
  outcome : Option (Except Error V)

/-- What has become of a request. -/
inductive Asked (V : Type) where
  /-- It has its answer. -/
  | answered (outcome : Except Error V)
  /-- Its builder has been called. -/
  | building
  /-- It waits for the builder of another request. -/
  | waiting

/-- What a phase says about a request; one that unwound answers with a crash. -/
def Phase.asked {V : Type} : Phase V → Asked V
  | .returned outcome => .answered outcome
  | .unwound => .answered (.error .crash)
  | .building _ => .building
  | _ => .waiting

namespace State

variable {V : Type}

/-- What has become of a request. -/
def asked (s : State V) (i : Nat) : Asked V :=
  (s.callers[i]?).elim .waiting (·.phase.asked)

/-- The answer of a request that has one. -/
def answer (s : State V) (i : Nat) : Except Error V :=
  match s.asked i with
  | .answered outcome => outcome
  | _ => .error .crash

/-- Whether the builder of a request was called. -/
def ran (s : State V) (i : Nat) : Bool := (s.callers[i]?).elim false (·.ran)

/-- A request, up to its answer or its builder; gives its number. -/
def ask (s : State V) (key : Key) (raised : Bool) : Nat × State V :=
  let i := s.callers.length
  (i, s.run [.arrive key raised, .lookup i, .start i, .publish i])

/-- The rest of a request whose builder does what is said. -/
def reply (s : State V) (i : Nat) (v : Verdict V) : State V :=
  let s := if v.raises then s.run [.raise i] else s
  match v.outcome with
  | some result => s.run [.finish i result, .publish i]
  | none => s.run [.unwind i, .inspect i, .drop i]

/-- The requests from a number on, one after another: the first that can start does, all find the
outcome once there is one. A builder does what `verdict` says of the number of builders called before
it. -/
def settle (verdict : Nat → Verdict V) : Nat → Nat → Nat → State V → State V
  | 0, _, _, s => s
  | n + 1, i, calls, s =>
    let s := s.run [.observe i, .start i, .publish i]
    match s.asked i with
    | .building => settle verdict n (i + 1) (calls + 1) (s.reply i (verdict calls))
    | _ => settle verdict n (i + 1) calls s

/-- Requests for one key that all look it up before any builder returns; gives their numbers. -/
def together (s : State V) (key : Key) (count : Nat) (verdict : Nat → Verdict V) :
    List Nat × State V :=
  let first := s.callers.length
  let numbers := List.range' first count
  let s := s.run (List.replicate count (.arrive key false))
  let s := s.run (numbers.map .lookup)
  (numbers, s.settle verdict count first 0)

end State

end OpFusion.Flight
