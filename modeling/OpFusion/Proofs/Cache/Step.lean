/-
  What one step of overlapping requests can do.

  `Step` lists the steps that are possible, each with the state it leads to, and `Move` lists what a step
  does to one request. The steps of the machine are those of the list (`step_of_step?`, `Step.step?_eq`), a
  step moves each request by one of the moves (`Step.move`), and what all steps keep holds after every run
  (`run_induction`).
-/
import OpFusion.Cache.Request
import OpFusion.Proofs.Cache.Basic

namespace OpFusion.Flight

variable {V : Type}

/-- The request that takes a step. -/
def Action.caller? : Action V → Option Nat
  | .arrive _ _ | .invalidate _ | .clear => none
  | .lookup i | .start i | .finish i _ | .unwind i | .inspect i | .drop i | .observe i | .publish i
  | .raise i => some i

/-- The request whose flight turns with a step. -/
def Action.turns? : Action V → Option Nat
  | .start i | .finish i _ | .unwind i => some i
  | _ => none

namespace State

variable {s s' : State V} {i j : Nat} {c c' d d' : Caller V}

/-! ## Requests that change -/

theorem callers_setCaller (h : s.callers[i]? = some c) (c' : Caller V) (j : Nat) :
    (s.setCaller i c').callers[j]? = if i = j then some c' else s.callers[j]? := by
  have hlt : i < s.callers.length := (List.getElem?_eq_some_iff.1 h).1
  show (s.callers.set i c')[j]? = _
  rw [List.getElem?_set]
  simp only [hlt, if_true]

theorem callers_self (h : s.callers[i]? = some c) (c' : Caller V) :
    (s.setCaller i c').callers[i]? = some c' := (callers_setCaller h c' i).trans (if_pos rfl)

theorem callers_concat (s : State V) (c' : Caller V) (j : Nat) :
    (s.callers ++ [c'])[j]? = if s.callers.length = j then some c' else s.callers[j]? := by
  by_cases hj : s.callers.length = j
  · subst hj
    simp
  · rw [if_neg hj, List.getElem?_append]
    split
    · rfl
    · next hge =>
      rw [List.getElem?_eq_none (l := s.callers) (by omega), List.getElem?_eq_none]
      simp only [List.length_cons, List.length_nil]
      omega

/-! ## Steps -/

/-- A request joins a flight. -/
def join (s : State V) (i : Nat) (c : Caller V) (flight : Nat) (cache : Cache V) : State V :=
  let cells := if flight < s.cells.length then s.cells else s.cells ++ [.vacant]
  { s with cache, cells }.setCaller i { c with phase := .waiting flight, joined := some flight }

/-- The steps that are possible. -/
inductive Step : State V → Action V → State V → Prop
  | arrive {s : State V} (key : Key) (raised : Bool) :
      Step s (.arrive key raised) (s.arrive key raised)
  | invalidate {s : State V} (key : Key) :
      Step s (.invalidate key) { s with cache := s.cache.invalidate key }
  | clear {s : State V} : Step s .clear { s with cache := s.cache.clear }
  | hit {s : State V} {i : Nat} {c : Caller V} {v : V} {ready : Recency V} :
      s.callers[i]? = some c → c.phase = .entered → s.cache.ready.use? c.key = some (v, ready) →
      Step s (.lookup i) ({ s with cache := s.cache.hit ready }.setPhase i c (.returned (.ok v)))
  | join {s : State V} {i : Nat} {c : Caller V} {flight : Nat} : s.callers[i]? = some c →
      c.phase = .entered → s.cache.ready.peek c.key = none →
      s.cache.inflight.lookup c.key = some flight →
      Step s (.lookup i) (s.join i c flight s.cache.miss)
  | create {s : State V} {i : Nat} {c : Caller V} : s.callers[i]? = some c → c.phase = .entered →
      s.cache.ready.peek c.key = none → s.cache.inflight.lookup c.key = none →
      Step s (.lookup i) (s.join i c s.cache.nextFlight (s.cache.miss.create c.key))
  | refuse {s : State V} {i : Nat} {c : Caller V} {flight : Nat} : s.callers[i]? = some c →
      c.phase = .waiting flight → s.cells[flight]? = some .vacant → c.raised = true →
      Step s (.start i) (({ s with cache := s.cache.begin }.setCell flight
        (.settled (.error .cancelled))).setPhase i c (.publishing flight (.error .cancelled)))
  | start {s : State V} {i : Nat} {c : Caller V} {flight : Nat} : s.callers[i]? = some c →
      c.phase = .waiting flight → s.cells[flight]? = some .vacant → c.raised = false →
      Step s (.start i) (({ s with cache := s.cache.begin }.setCell flight .running).setCaller i
        { c with phase := .building flight, ran := true })
  | finish {s : State V} {i : Nat} {c : Caller V} {flight : Nat} (result : Except Error V) :
      s.callers[i]? = some c → c.phase = .building flight →
      Step s (.finish i result) (s.finish i c flight result)
  | unwind {s : State V} {i : Nat} {c : Caller V} {flight : Nat} : s.callers[i]? = some c →
      c.phase = .building flight →
      Step s (.unwind i) ((s.setCell flight .vacant).setPhase i c (.unwinding flight))
  | leave {s : State V} {i : Nat} {c : Caller V} {flight : Nat} {outcome : Except Error V} :
      s.callers[i]? = some c → c.phase = .unwinding flight →
      s.cells[flight]? = some (.settled outcome) → Step s (.inspect i) (s.setPhase i c .unwound)
  | inspect {s : State V} {i : Nat} {c : Caller V} {flight : Nat} : s.callers[i]? = some c →
      c.phase = .unwinding flight → (∀ outcome, s.cells[flight]? ≠ some (.settled outcome)) →
      Step s (.inspect i) (s.setPhase i c (.dropping flight))
  | drop {s : State V} {i : Nat} {c : Caller V} {flight : Nat} : s.callers[i]? = some c →
      c.phase = .dropping flight →
      Step s (.drop i) ({ s with cache := s.cache.dropFlight c.key flight }.setPhase i c .unwound)
  | observe {s : State V} {i : Nat} {c : Caller V} {flight : Nat} {outcome : Except Error V} :
      s.callers[i]? = some c → c.phase = .waiting flight →
      s.cells[flight]? = some (.settled outcome) →
      Step s (.observe i) (s.setPhase i c (.returned outcome))
  | publish {s : State V} {i : Nat} {c : Caller V} {flight : Nat} {outcome : Except Error V} :
      s.callers[i]? = some c → c.phase = .publishing flight outcome →
      Step s (.publish i) ({ s with cache := s.cache.publish c.key flight outcome }.setPhase i c
        (.returned outcome))
  | raise {s : State V} {i : Nat} {c : Caller V} : s.callers[i]? = some c →
      Step s (.raise i) (s.setCaller i { c with raised := true })

theorem lookup_of_hit {v : V} {ready : Recency V} (i : Nat)
    (h : s.cache.ready.use? c.key = some (v, ready)) :
    s.lookup i c = { s with cache := s.cache.hit ready }.setPhase i c (.returned (.ok v)) := by
  simp only [lookup, Cache.lookup, h]
  rfl

theorem lookup_of_join {flight : Nat} (i : Nat) (h : s.cache.ready.peek c.key = none)
    (hflight : s.cache.inflight.lookup c.key = some flight) :
    s.lookup i c = s.join i c flight s.cache.miss := by
  simp only [lookup, Cache.lookup, Recency.use?, h, hflight]
  rfl

theorem lookup_of_create (i : Nat) (h : s.cache.ready.peek c.key = none)
    (hflight : s.cache.inflight.lookup c.key = none) :
    s.lookup i c = s.join i c s.cache.nextFlight (s.cache.miss.create c.key) := by
  simp only [lookup, Cache.lookup, Recency.use?, h, hflight]
  rfl

theorem step_lookup (hc : s.callers[i]? = some c) (hphase : c.phase = .entered) :
    Step s (.lookup i) (s.lookup i c) := by
  cases huse : s.cache.ready.use? c.key with
  | some found =>
    rw [lookup_of_hit i huse]
    exact .hit hc hphase huse
  | none =>
    have hpeek : s.cache.ready.peek c.key = none := Option.map_eq_none_iff.1 huse
    cases hflight : s.cache.inflight.lookup c.key with
    | some flight =>
      rw [lookup_of_join i hpeek hflight]
      exact .join hc hphase hpeek hflight
    | none =>
      rw [lookup_of_create i hpeek hflight]
      exact .create hc hphase hpeek hflight

theorem step_start {flight : Nat} (hc : s.callers[i]? = some c) (hphase : c.phase = .waiting flight)
    (hcell : s.cells[flight]? = some .vacant) : Step s (.start i) (s.start i c flight) := by
  rw [start]
  split
  · next hraised => exact .refuse hc hphase hcell hraised
  · next hraised => exact .start hc hphase hcell (Bool.not_eq_true _ ▸ hraised)

theorem step_inspect {flight : Nat} (hc : s.callers[i]? = some c)
    (hphase : c.phase = .unwinding flight) : Step s (.inspect i) (s.inspect i c flight) := by
  rw [inspect]
  split
  · next outcome hcell => exact .leave hc hphase hcell
  · next hcell => exact .inspect hc hphase fun outcome h => hcell outcome h

/-- **Every step of the machine is one of the list.** -/
theorem step_of_step? {a : Action V} (h : s.step? a = some s') : Step s a s' := by
  cases a with
  | arrive key raised => cases h; exact .arrive key raised
  | invalidate key => cases h; exact .invalidate key
  | clear => cases h; exact .clear
  | lookup i =>
    obtain ⟨c, hc, h⟩ := Option.bind_eq_some_iff.1 h
    split at h
    · next hphase => cases h; exact step_lookup hc hphase
    · cases h
  | start i =>
    obtain ⟨c, hc, h⟩ := Option.bind_eq_some_iff.1 h
    split at h
    · next flight hphase =>
      split at h
      · next hcell => cases h; exact step_start hc hphase hcell
      · cases h
    · cases h
  | finish i result =>
    obtain ⟨c, hc, h⟩ := Option.bind_eq_some_iff.1 h
    split at h
    · next flight hphase => cases h; exact .finish result hc hphase
    · cases h
  | unwind i =>
    obtain ⟨c, hc, h⟩ := Option.bind_eq_some_iff.1 h
    split at h
    · next flight hphase => cases h; exact .unwind hc hphase
    · cases h
  | inspect i =>
    obtain ⟨c, hc, h⟩ := Option.bind_eq_some_iff.1 h
    split at h
    · next flight hphase => cases h; exact step_inspect hc hphase
    · cases h
  | drop i =>
    obtain ⟨c, hc, h⟩ := Option.bind_eq_some_iff.1 h
    split at h
    · next flight hphase => cases h; exact .drop hc hphase
    · cases h
  | observe i =>
    obtain ⟨c, hc, h⟩ := Option.bind_eq_some_iff.1 h
    split at h
    · next flight hphase =>
      split at h
      · next outcome hcell => cases h; exact .observe hc hphase hcell
      · cases h
    · cases h
  | publish i =>
    obtain ⟨c, hc, h⟩ := Option.bind_eq_some_iff.1 h
    split at h
    · next flight outcome hphase => cases h; exact .publish hc hphase
    · cases h
  | raise i =>
    obtain ⟨c, hc, h⟩ := Option.bind_eq_some_iff.1 h
    cases h
    exact .raise hc

/-- **Every step of the list is one of the machine.** -/
theorem Step.step?_eq {a : Action V} (h : Step s a s') : s.step? a = some s' := by
  cases h with
  | arrive _ _ => rfl
  | invalidate _ => rfl
  | clear => rfl
  | hit hc hphase huse => simp [step?, hc, hphase, lookup_of_hit _ huse]
  | join hc hphase hpeek hflight => simp [step?, hc, hphase, lookup_of_join _ hpeek hflight]
  | create hc hphase hpeek hflight => simp [step?, hc, hphase, lookup_of_create _ hpeek hflight]
  | refuse hc hphase hcell hraised => simp [step?, hc, hphase, hcell, State.start, hraised]
  | start hc hphase hcell hraised => simp [step?, hc, hphase, hcell, State.start, hraised]
  | finish _ hc hphase => simp [step?, hc, hphase]
  | unwind hc hphase => simp [step?, hc, hphase]
  | leave hc hphase hcell => simp [step?, hc, hphase, State.inspect, hcell]
  | inspect hc hphase hcell => simp [step?, hc, hphase, State.inspect]
  | drop hc hphase => simp [step?, hc, hphase]
  | observe hc hphase hcell => simp [step?, hc, hphase, hcell]
  | publish hc hphase => simp [step?, hc, hphase]
  | raise hc => simp [step?, hc]

/-! ## The part of one request -/

/-- What a step does to the request with a number. -/
inductive Move (s : State V) (j : Nat) : Action V → Caller V → Caller V → Prop
  | rest {a : Action V} {d : Caller V} : a.caller? ≠ some j → Move s j a d d
  | hit {d : Caller V} {v : V} : d.phase = .entered → s.cache.ready.peek d.key = some v →
      Move s j (.lookup j) d { d with phase := .returned (.ok v) }
  | join {d : Caller V} {flight : Nat} : d.phase = .entered → s.cache.ready.peek d.key = none →
      s.cache.inflight.lookup d.key = some flight →
      Move s j (.lookup j) d { d with phase := .waiting flight, joined := some flight }
  | create {d : Caller V} : d.phase = .entered → s.cache.ready.peek d.key = none →
      s.cache.inflight.lookup d.key = none →
      Move s j (.lookup j) d
        { d with phase := .waiting s.cache.nextFlight, joined := some s.cache.nextFlight }
  | refuse {d : Caller V} {flight : Nat} : d.phase = .waiting flight →
      s.cells[flight]? = some .vacant → d.raised = true →
      Move s j (.start j) d { d with phase := .publishing flight (.error .cancelled) }
  | start {d : Caller V} {flight : Nat} : d.phase = .waiting flight →
      s.cells[flight]? = some .vacant → d.raised = false →
      Move s j (.start j) d { d with phase := .building flight, ran := true }
  | finish {d : Caller V} {flight : Nat} {result : Except Error V} : d.phase = .building flight →
      Move s j (.finish j result) d
        { d with phase := .publishing flight (if d.raised then .error .cancelled else result) }
  | unwind {d : Caller V} {flight : Nat} : d.phase = .building flight →
      Move s j (.unwind j) d { d with phase := .unwinding flight }
  | leave {d : Caller V} {flight : Nat} : d.phase = .unwinding flight →
      Move s j (.inspect j) d { d with phase := .unwound }
  | inspect {d : Caller V} {flight : Nat} : d.phase = .unwinding flight →
      Move s j (.inspect j) d { d with phase := .dropping flight }
  | drop {d : Caller V} {flight : Nat} : d.phase = .dropping flight →
      Move s j (.drop j) d { d with phase := .unwound }
  | observe {d : Caller V} {flight : Nat} {outcome : Except Error V} : d.phase = .waiting flight →
      s.cells[flight]? = some (.settled outcome) →
      Move s j (.observe j) d { d with phase := .returned outcome }
  | publish {d : Caller V} {flight : Nat} {outcome : Except Error V} :
      d.phase = .publishing flight outcome →
      Move s j (.publish j) d { d with phase := .returned outcome }
  | raise {d : Caller V} : Move s j (.raise j) d { d with raised := true }

/-- **A step moves each request by one of the moves.** -/
theorem Step.move {a : Action V} (h : Step s a s') (hd : s.callers[j]? = some d) :
    ∃ d', s'.callers[j]? = some d' ∧ Move s j a d d' := by
  have hset {t : State V} (ht : t.callers = s.callers) {i : Nat} (ha : a.caller? = some i)
      {c : Caller V} (c' : Caller V) (hc : s.callers[i]? = some c) (hmove : Move s i a c c') :
      ∃ d', (t.setCaller i c').callers[j]? = some d' ∧ Move s j a d d' := by
    rw [callers_setCaller (ht.symm ▸ hc), ht]
    split
    · next hij =>
      subst hij
      cases hc.symm.trans hd
      exact ⟨c', rfl, hmove⟩
    · next hij => exact ⟨d, hd, .rest fun h => hij (Option.some.inj (ha.symm.trans h))⟩
  cases h with
  | arrive key raised =>
    have hlt := (List.getElem?_eq_some_iff.1 hd).1
    refine ⟨d, ?_, .rest nofun⟩
    rw [State.arrive, callers_concat, if_neg (Nat.ne_of_gt hlt)]
    exact hd
  | invalidate key => exact ⟨d, hd, .rest nofun⟩
  | clear => exact ⟨d, hd, .rest nofun⟩
  | hit hc hphase huse => exact hset rfl rfl _ hc (.hit hphase (Recency.peek_use (j := d.key) huse).1)
  | join hc hphase hpeek hflight => exact hset rfl rfl _ hc (.join hphase hpeek hflight)
  | create hc hphase hpeek hflight => exact hset rfl rfl _ hc (.create hphase hpeek hflight)
  | refuse hc hphase hcell hraised => exact hset rfl rfl _ hc (.refuse hphase hcell hraised)
  | start hc hphase hcell hraised => exact hset rfl rfl _ hc (.start hphase hcell hraised)
  | finish _ hc hphase => exact hset rfl rfl _ hc (.finish hphase)
  | unwind hc hphase => exact hset rfl rfl _ hc (.unwind hphase)
  | leave hc hphase _ => exact hset rfl rfl _ hc (.leave hphase)
  | inspect hc hphase _ => exact hset rfl rfl _ hc (.inspect hphase)
  | drop hc hphase => exact hset rfl rfl _ hc (.drop hphase)
  | observe hc hphase hcell => exact hset rfl rfl _ hc (.observe hphase hcell)
  | publish hc hphase => exact hset rfl rfl _ hc (.publish hphase)
  | raise hc => exact hset rfl rfl _ hc .raise

/-- A request after a step was there before, or arrives with the step. -/
theorem Step.origin {a : Action V} (h : Step s a s') (hd' : s'.callers[j]? = some d') :
    (∃ d, s.callers[j]? = some d ∧ Move s j a d d') ∨
      ∃ key raised, a = .arrive key raised ∧ j = s.callers.length ∧
        d' = ⟨key, raised, if raised then .returned (.error .cancelled) else .entered, none, false⟩ := by
  cases hd : s.callers[j]? with
  | some d =>
    obtain ⟨d'', hd'', hmove⟩ := h.move hd
    cases hd'.symm.trans hd''
    exact .inl ⟨d, rfl, hmove⟩
  | none =>
    have hset {t : State V} (ht : t.callers = s.callers) (i : Nat) (c : Caller V) :
        (t.setCaller i c).callers[j]? = none := by
      rw [List.getElem?_eq_none_iff] at hd ⊢
      simpa [setCaller, ht] using hd
    cases h with
    | arrive key raised =>
      rw [State.arrive, callers_concat] at hd'
      split at hd'
      · next hj =>
        cases hd'
        exact .inr ⟨key, raised, rfl, hj.symm, rfl⟩
      · cases hd'.symm.trans hd
    | invalidate key => cases hd'.symm.trans hd
    | clear => cases hd'.symm.trans hd
    | _ => exact absurd (hd'.symm.trans (hset rfl _ _)) nofun

/-! ## Runs -/

theorem run_concat (s : State V) (actions : List (Action V)) (a : Action V) :
    s.run (actions ++ [a]) = ((s.run actions).step? a).getD (s.run actions) := by
  rw [run, List.foldl_append]
  rfl

theorem run_append (s : State V) (first rest : List (Action V)) :
    s.run (first ++ rest) = (s.run first).run rest := List.foldl_append

/-- **What every step of a kind keeps, every run of that kind keeps.** -/
theorem run_induction {P : State V → Prop} {A : Action V → Prop} {actions : List (Action V)}
    (hactions : ∀ a ∈ actions, A a) (hs : P s)
    (hstep : ∀ t a t', A a → P t → Step t a t' → P t') : P (s.run actions) := by
  induction actions generalizing s with
  | nil => exact hs
  | cons a rest ih =>
    have hrest : ∀ b ∈ rest, A b := fun b hb => hactions b (List.mem_cons_of_mem a hb)
    show P (((s.step? a).getD s).run rest)
    cases hs' : s.step? a with
    | none => exact ih hrest hs
    | some s' =>
      exact ih hrest (hstep s a s' (hactions a List.mem_cons_self) hs (step_of_step? hs'))

end State

end OpFusion.Flight
