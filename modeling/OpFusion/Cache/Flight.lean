/-
  Requests to a cache that overlap.

  A request first looks at its token, then looks its key up; if there is no ready value it joins a
  flight. A flight is a cell that is written once. One of the requests that joined starts its builder
  and settles the cell with the outcome; the others wait and take the outcome from the cell. The
  starter then publishes the outcome. If the builder unwinds, the cell is empty again, and another
  waiting request may start its own; the one that unwound drops the flight on its way out.

  `step?` is one atomic step of one request, or one of the other operations on the cache, and `none`
  where the step is not possible.
-/
import OpFusion.Cache.Basic

namespace OpFusion.Flight

/-- The cell of a flight. -/
inductive Cell (V : Type) where
  /-- No builder runs, and there is no outcome. -/
  | vacant
  /-- A builder runs. -/
  | running
  /-- The outcome. -/
  | settled (outcome : Except Error V)

/-- Where a request is. -/
inductive Phase (V : Type) where
  /-- Its token was not raised; it has not looked its key up. -/
  | entered
  /-- It joined a flight. -/
  | waiting (flight : Nat)
  /-- Its builder runs for a flight. -/
  | building (flight : Nat)
  /-- It settled a flight with an outcome, and has to publish it. -/
  | publishing (flight : Nat) (outcome : Except Error V)
  /-- Its builder unwound, and it has to look whether the flight has an outcome. -/
  | unwinding (flight : Nat)
  /-- Its builder unwound, and it has to drop the flight. -/
  | dropping (flight : Nat)
  /-- It returned an outcome. -/
  | returned (outcome : Except Error V)
  /-- It unwound. -/
  | unwound

/-- A request for a key. -/
structure Caller (V : Type) where
  key : Key
  /-- Whether its token is raised. -/
  raised : Bool
  phase : Phase V
  /-- The flight that it joined. -/
  joined : Option Nat := none
  /-- Whether its builder was called. -/
  ran : Bool := false

/-- A cache with its flights and its requests. -/
structure State (V : Type) where
  cache : Cache V
  /-- The cells of the flights, by their numbers. -/
  cells : List (Cell V) := []
  /-- The requests, by the order of their arrival. -/
  callers : List (Caller V) := []

/-- The atomic steps. -/
inductive Action (V : Type) where
  /-- A request arrives and looks at its token. -/
  | arrive (key : Key) (raised : Bool)
  /-- A request looks its key up. -/
  | lookup (caller : Nat)
  /-- A waiting request is the one to start: it counts a build, and calls its builder unless its token
  is raised. -/
  | start (caller : Nat)
  /-- A builder returns; a raised token overrules what it returns. -/
  | finish (caller : Nat) (result : Except Error V)
  /-- A builder unwinds. -/
  | unwind (caller : Nat)
  /-- A request whose builder unwound looks whether its flight has an outcome all the same. -/
  | inspect (caller : Nat)
  /-- It did not have one, and the request drops it. -/
  | drop (caller : Nat)
  /-- A waiting request takes the outcome. -/
  | observe (caller : Nat)
  /-- The request that settled a flight publishes the outcome. -/
  | publish (caller : Nat)
  /-- The token of a request is raised. -/
  | raise (caller : Nat)
  /-- The ready value of a key is dropped. -/
  | invalidate (key : Key)
  /-- All ready values are dropped. -/
  | clear

namespace State

variable {V : Type}

/-- No requests, and no values. -/
def empty (capacity : Option Nat) : State V := { cache := .empty capacity }

/-- No requests, and no values, unless memory cannot address so many of them. -/
def fresh (capacity : Option Nat) : Except Error (State V) :=
  if Recency.isPossible capacity then .ok (empty capacity) else .error .crash

/-- The state with one request changed. -/
def setCaller (s : State V) (i : Nat) (c : Caller V) : State V :=
  { s with callers := s.callers.set i c }

/-- The state with one request in another phase. -/
def setPhase (s : State V) (i : Nat) (c : Caller V) (phase : Phase V) : State V :=
  s.setCaller i { c with phase }

/-- The state with the cell of a flight changed. -/
def setCell (s : State V) (flight : Nat) (cell : Cell V) : State V :=
  { s with cells := s.cells.set flight cell }

/-- A request arrives. -/
def arrive (s : State V) (key : Key) (raised : Bool) : State V :=
  { s with
    callers := s.callers ++
      [{ key, raised, phase := if raised then .returned (.error .cancelled) else .entered }] }

/-- A request looks its key up. -/
def lookup (s : State V) (i : Nat) (c : Caller V) : State V :=
  match s.cache.lookup c.key with
  | (.hit v, cache) => { s with cache }.setPhase i c (.returned (.ok v))
  | (.join flight, cache) =>
    let cells := if flight < s.cells.length then s.cells else s.cells ++ [.vacant]
    { s with cache, cells }.setCaller i { c with phase := .waiting flight, joined := some flight }

/-- A request starts. -/
def start (s : State V) (i : Nat) (c : Caller V) (flight : Nat) : State V :=
  let s := { s with cache := s.cache.begin }
  if c.raised then
    (s.setCell flight (.settled (.error .cancelled))).setPhase i c
      (.publishing flight (.error .cancelled))
  else
    (s.setCell flight .running).setCaller i { c with phase := .building flight, ran := true }

/-- A builder returns. -/
def finish (s : State V) (i : Nat) (c : Caller V) (flight : Nat) (result : Except Error V) : State V :=
  let outcome := if c.raised then .error .cancelled else result
  (s.setCell flight (.settled outcome)).setPhase i c (.publishing flight outcome)

/-- A request whose builder unwound looks at its flight: one with an outcome is left alone. -/
def inspect (s : State V) (i : Nat) (c : Caller V) (flight : Nat) : State V :=
  match s.cells[flight]? with
  | some (.settled _) => s.setPhase i c .unwound
  | _ => s.setPhase i c (.dropping flight)

/-- One atomic step. -/
def step? (s : State V) : Action V → Option (State V)
  | .arrive key raised => some (s.arrive key raised)
  | .invalidate key => some { s with cache := s.cache.invalidate key }
  | .clear => some { s with cache := s.cache.clear }
  | .lookup i => do
    let c ← s.callers[i]?
    match c.phase with
    | .entered => some (s.lookup i c)
    | _ => none
  | .start i => do
    let c ← s.callers[i]?
    match c.phase with
    | .waiting flight =>
      match s.cells[flight]? with
      | some .vacant => some (s.start i c flight)
      | _ => none
    | _ => none
  | .finish i result => do
    let c ← s.callers[i]?
    match c.phase with
    | .building flight => some (s.finish i c flight result)
    | _ => none
  | .unwind i => do
    let c ← s.callers[i]?
    match c.phase with
    | .building flight => some ((s.setCell flight .vacant).setPhase i c (.unwinding flight))
    | _ => none
  | .inspect i => do
    let c ← s.callers[i]?
    match c.phase with
    | .unwinding flight => some (s.inspect i c flight)
    | _ => none
  | .drop i => do
    let c ← s.callers[i]?
    match c.phase with
    | .dropping flight =>
      some ({ s with cache := s.cache.dropFlight c.key flight }.setPhase i c .unwound)
    | _ => none
  | .observe i => do
    let c ← s.callers[i]?
    match c.phase with
    | .waiting flight =>
      match s.cells[flight]? with
      | some (.settled outcome) => some (s.setPhase i c (.returned outcome))
      | _ => none
    | _ => none
  | .publish i => do
    let c ← s.callers[i]?
    match c.phase with
    | .publishing flight outcome =>
      some ({ s with cache := s.cache.publish c.key flight outcome }.setPhase i c
        (.returned outcome))
    | _ => none
  | .raise i => do
    let c ← s.callers[i]?
    some (s.setCaller i { c with raised := true })

/-- The steps that are possible, one after another; a step that is not possible changes nothing. -/
def run (s : State V) (actions : List (Action V)) : State V :=
  actions.foldl (fun s a => (s.step? a).getD s) s

end State

end OpFusion.Flight
