/-
  The counters of a cache balance, and no flight is left behind.

  Every request that finds no value waits, starts, or takes the outcome of another one, and every build that
  starts is under way, published or unwound; so the counters are told by the steps of a run and by where the
  requests are (`Balanced`). A flight in the table has a request that minds it: one that waits or is on its
  way out while its cell is vacant, its builder while it runs, and its publisher once it has an outcome
  (`Manned`). When all requests are over there is none, and the table is empty (`Manned.drained`).
-/
import OpFusion.Proofs.Cache.Flights

namespace OpFusion.Flight

variable {V : Type}

/-! ## What is counted -/

namespace Phase

/-- A request waits for the outcome of a flight. -/
def isWaiting : Phase V → Bool
  | .waiting _ => true
  | _ => false

/-- A builder runs, or its outcome is to be published. -/
def isHolding : Phase V → Bool
  | .building _ | .publishing _ _ => true
  | _ => false

/-- There is a value to publish. -/
def hasValue : Phase V → Bool
  | .publishing _ (.ok _) => true
  | _ => false

/-- A request is over. -/
def isOver : Phase V → Bool
  | .returned _ | .unwound => true
  | _ => false

end Phase

namespace State

variable {s s' : State V} {a : Action V} {i : Nat} {c : Caller V} {k : Key} {flight : Nat}

/-- The steps of a run that are possible, each with the state before it. -/
def steps (s : State V) : List (Action V) → List (State V × Action V)
  | [] => []
  | a :: rest =>
    match s.step? a with
    | some s' => (s, a) :: s'.steps rest
    | none => s.steps rest

/-- A request looks its key up. -/
def isLookup : State V × Action V → Bool
  | (_, .lookup _) => true
  | _ => false

/-- A request takes the outcome of another one. -/
def isObserve : State V × Action V → Bool
  | (_, .observe _) => true
  | _ => false

/-- A builder unwinds. -/
def isUnwind : State V × Action V → Bool
  | (_, .unwind _) => true
  | _ => false

/-- A value is published. -/
def isSuccess : State V × Action V → Bool
  | (s, .publish i) => (s.callers[i]?).any (·.phase.hasValue)
  | _ => false

/-- No request is in progress. -/
def Idle (s : State V) : Prop := ∀ c ∈ s.callers, c.phase.isOver = true

/-! ## The balance -/

/-- The number of requests in certain phases. -/
def callersIn (s : State V) (p : Phase V → Bool) : Nat := s.callers.countP (p ·.phase)

/-- Which steps have led to what has been counted. -/
structure Balanced (s : State V) (done : List (State V × Action V)) : Prop where
  lookups : s.cache.stats.hits + s.cache.stats.misses = done.countP isLookup
  misses : s.cache.stats.misses =
    s.cache.stats.builds + s.callersIn Phase.isWaiting + done.countP isObserve
  builds : s.cache.stats.builds = done.countP isSuccess + s.cache.stats.failures +
    done.countP isUnwind + s.callersIn Phase.isHolding

theorem countP_concat {α : Type} (p : α → Bool) (l : List α) (x : α) :
    (l ++ [x]).countP p = l.countP p + (p x).toNat := by
  cases hx : p x <;> simp [hx]

theorem callersIn_setCaller (p : Phase V → Bool) (hc : s.callers[i]? = some c) (c' : Caller V) :
    (s.setCaller i c').callersIn p + (p c.phase).toNat = s.callersIn p + (p c'.phase).toNat := by
  obtain ⟨hlt, rfl⟩ := List.getElem?_eq_some_iff.1 hc
  have hle : (p s.callers[i].phase).toNat ≤ s.callersIn p := by
    cases hold : p s.callers[i].phase with
    | false => exact Nat.zero_le _
    | true => exact List.countP_pos_iff.2 ⟨_, List.getElem_mem hlt, hold⟩
  have hite : ∀ b : Bool, (if b = true then 1 else 0) = b.toNat := by decide
  have hset := List.countP_set (p := fun c : Caller V => p c.phase) (a := c') hlt
  rw [hite, hite] at hset
  unfold callersIn at hle ⊢
  show (s.callers.set i c').countP _ + _ = _
  omega

/-- The balance is kept by a step of a request, if what the step counts is what the request goes through. -/
theorem Balanced.move {done : List (State V × Action V)} {old : Phase V} (hb : s.Balanced done)
    (hc : s.callers[i]? = some c) (hphase : c.phase = old) (t : State V) (ht : t.callers = s.callers)
    (a : Action V) (c' : Caller V)
    (hlookups : t.cache.stats.hits + t.cache.stats.misses =
      s.cache.stats.hits + s.cache.stats.misses + (isLookup (s, a)).toNat)
    (hmisses : t.cache.stats.misses + s.cache.stats.builds + old.isWaiting.toNat =
      s.cache.stats.misses + t.cache.stats.builds + c'.phase.isWaiting.toNat + (isObserve (s, a)).toNat)
    (hbuilds : t.cache.stats.builds + s.cache.stats.failures + old.isHolding.toNat =
      s.cache.stats.builds + t.cache.stats.failures + c'.phase.isHolding.toNat + (isSuccess (s, a)).toNat +
        (isUnwind (s, a)).toNat) :
    (t.setCaller i c').Balanced (done ++ [(s, a)]) := by
  subst hphase
  have hwaiting := callersIn_setCaller (s := t) Phase.isWaiting (ht ▸ hc) c'
  have hholding := callersIn_setCaller (s := t) Phase.isHolding (ht ▸ hc) c'
  have hsame : ∀ p, t.callersIn p = s.callersIn p := fun p => congrArg (List.countP _) ht
  have hcache : (t.setCaller i c').cache = t.cache := rfl
  obtain ⟨hlookups', hmisses', hbuilds'⟩ := hb
  rw [hsame] at hwaiting hholding
  refine ⟨?_, ?_, ?_⟩ <;> simp only [countP_concat, hcache] <;> omega

/-- The balance is kept by a step of no request. -/
theorem Balanced.rest {done : List (State V × Action V)} (hb : s.Balanced done)
    (ha : isLookup (s, a) = false ∧ isObserve (s, a) = false ∧ isUnwind (s, a) = false ∧
      isSuccess (s, a) = false) (hstats : s'.cache.stats = s.cache.stats)
    (hwaiting : s'.callersIn Phase.isWaiting = s.callersIn Phase.isWaiting)
    (hholding : s'.callersIn Phase.isHolding = s.callersIn Phase.isHolding) :
    s'.Balanced (done ++ [(s, a)]) := by
  obtain ⟨hlookup, hobserve, hunwind, hsuccess⟩ := ha
  refine ⟨?_, ?_, ?_⟩ <;>
    simp only [countP_concat, hlookup, hobserve, hunwind, hsuccess, hstats, hwaiting, hholding]
  · exact hb.lookups
  · exact hb.misses
  · exact hb.builds

theorem callersIn_arrive {p : Phase V → Bool} (k : Key) (raised : Bool) (hreturned : ∀ o, p (.returned o) = false)
    (hentered : p .entered = false) : (s.arrive k raised).callersIn p = s.callersIn p := by
  rw [callersIn, arrive, countP_concat, callersIn]
  cases raised with
  | true => simp [hreturned]
  | false => simp [hentered]

/-- **Every step keeps the balance.** -/
theorem Balanced.step {done : List (State V × Action V)} (hb : s.Balanced done) (h : Step s a s') :
    s'.Balanced (done ++ [(s, a)]) := by
  cases h with
  | arrive key raised =>
    exact hb.rest ⟨rfl, rfl, rfl, rfl⟩ rfl (callersIn_arrive key raised (fun _ => rfl) rfl)
      (callersIn_arrive key raised (fun _ => rfl) rfl)
  | invalidate key => exact hb.rest ⟨rfl, rfl, rfl, rfl⟩ rfl rfl rfl
  | clear => exact hb.rest ⟨rfl, rfl, rfl, rfl⟩ rfl rfl rfl
  | hit hc hphase huse =>
    exact hb.move hc hphase { s with cache := s.cache.hit _ } rfl _ _ (Nat.add_right_comm ..) rfl rfl
  | join hc hphase hpeek hflight =>
    exact hb.move hc hphase { s with cache := s.cache.miss, cells := _ } rfl _ _ rfl
      (Nat.add_right_comm s.cache.stats.misses 1 s.cache.stats.builds) rfl
  | create hc hphase hpeek hflight =>
    exact hb.move hc hphase { s with cache := s.cache.miss.create _, cells := _ } rfl _ _ rfl
      (Nat.add_right_comm s.cache.stats.misses 1 s.cache.stats.builds) rfl
  | @refuse i c flight hc hphase hcell hraised =>
    exact hb.move hc hphase ({ s with cache := s.cache.begin }.setCell flight _) rfl (.start i)
      { c with phase := .publishing flight (.error .cancelled) } rfl rfl
      (Nat.add_right_comm s.cache.stats.builds 1 s.cache.stats.failures)
  | @start i c flight hc hphase hcell hraised =>
    exact hb.move hc hphase ({ s with cache := s.cache.begin }.setCell flight _) rfl (.start i)
      { c with phase := .building flight, ran := true } rfl rfl
      (Nat.add_right_comm s.cache.stats.builds 1 s.cache.stats.failures)
  | @finish i c flight result hc hphase =>
    exact hb.move hc hphase (s.setCell flight _) rfl _ _ rfl rfl rfl
  | @unwind i c flight hc hphase =>
    exact hb.move hc hphase (s.setCell flight _) rfl _ _ rfl rfl rfl
  | leave hc hphase hcell => exact hb.move hc hphase s rfl _ _ rfl rfl rfl
  | inspect hc hphase hcell => exact hb.move hc hphase s rfl _ _ rfl rfl rfl
  | @drop i c flight hc hphase =>
    have hstats := Cache.stats_dropFlight s.cache c.key flight
    refine hb.move hc hphase { s with cache := s.cache.dropFlight c.key flight } rfl _ _ ?_ ?_ ?_ <;>
      rw [hstats] <;> rfl
  | observe hc hphase hcell => exact hb.move hc hphase s rfl _ _ rfl rfl rfl
  | @publish i c flight outcome hc hphase =>
    have hstats := Cache.stats_publish s.cache c.key flight outcome
    have hsuccess : isSuccess (s, .publish i) = (Phase.publishing flight outcome).hasValue := by
      rw [isSuccess, hc, Option.any_some, hphase]
    refine hb.move hc hphase { s with cache := s.cache.publish c.key flight outcome } rfl _ _ ?_ ?_ ?_ <;>
      rw [hstats] <;> cases outcome <;> simp only [hsuccess] <;> rfl
  | @raise i c hc => exact hb.move hc rfl s rfl _ _ rfl rfl rfl

theorem balanced_empty (capacity : Option Nat) : (empty capacity : State V).Balanced [] := ⟨rfl, rfl, rfl⟩

theorem Balanced.run {done : List (State V × Action V)} (hb : s.Balanced done) (actions : List (Action V)) :
    (s.run actions).Balanced (done ++ s.steps actions) := by
  induction actions generalizing s done with
  | nil => rwa [steps, List.append_nil]
  | cons a rest ih =>
    show (((s.step? a).getD s).run rest).Balanced _
    cases hs' : s.step? a with
    | none =>
      rw [steps, hs']
      exact ih hb
    | some s' =>
      have hsteps : s.steps (a :: rest) = (s, a) :: s'.steps rest := by rw [steps, hs']
      rw [hsteps, List.append_cons]
      exact ih (hb.step (step_of_step? hs'))

/-! ## Who minds a flight -/

/-- A request minds a flight: it will start it, drop it, settle it or publish it, as its cell asks for. -/
def Minds (c : Caller V) (flight : Nat) (x : Cell V) : Prop :=
  match c.phase with
  | .waiting f | .unwinding f | .dropping f => f = flight ∧ x = .vacant
  | .building f => f = flight ∧ x = .running
  | .publishing f outcome => f = flight ∧ x = .settled outcome
  | .entered | .returned _ | .unwound => False

theorem Minds.isOver_eq {x : Cell V} (h : Minds c flight x) : c.phase.isOver = false := by
  cases hphase : c.phase <;> simp [Minds, hphase, Phase.isOver] at h ⊢

/-- Every flight in the table is minded. -/
def Manned (s : State V) : Prop :=
  ∀ (k : Key) (flight : Nat) (x : Cell V), s.cache.inflight.lookup k = some flight →
    s.cells[flight]? = some x → ∃ (i : Nat) (c : Caller V), s.callers[i]? = some c ∧ Minds c flight x

/-- A flight is not in the table after it is dropped. -/
theorem Step.lookup_dropped (h : Step s (.drop i) s') (hc : s.callers[i]? = some c)
    (hphase : c.phase = .dropping flight) (hlookup : s.cache.inflight.lookup c.key = some flight) :
    s'.cache.inflight.lookup c.key = none := by
  cases h with
  | drop hd hphase' =>
    cases hc.symm.trans hd
    cases hphase.symm.trans hphase'
    exact (Cache.lookup_dropFlight ..).trans (if_pos ⟨rfl, hlookup⟩)

/-- A flight is not in the table after its outcome is published. -/
theorem Step.lookup_published {outcome : Except Error V} (h : Step s (.publish i) s')
    (hc : s.callers[i]? = some c) (hphase : c.phase = .publishing flight outcome)
    (hlookup : s.cache.inflight.lookup c.key = some flight) : s'.cache.inflight.lookup c.key = none := by
  cases h with
  | publish hd hphase' =>
    cases hc.symm.trans hd
    cases hphase.symm.trans hphase'
    show (s.cache.publish c.key flight outcome).inflight.lookup c.key = none
    rw [Cache.inflight_publish, Cache.lookup_dropFlight, if_pos ⟨rfl, hlookup⟩]

/-- A flight that rests and stays in the table is minded by whoever minded it. -/
theorem Sound.minds_rest {x : Cell V} (hs : s.Sound) (h : Step s a s')
    (hold : s.cache.inflight.lookup k = some flight) (hnew : s'.cache.inflight.lookup k = some flight)
    (hx : s.cells[flight]? = some x) (hc : s.callers[i]? = some c) (hminds : Minds c flight x)
    (hrest : ∀ (i : Nat) (c : Caller V), a.turns? = some i → s.callers[i]? = some c →
      c.phase ≠ .waiting flight ∧ c.phase ≠ .building flight) :
    ∃ (j : Nat) (d : Caller V), s'.callers[j]? = some d ∧ Minds d flight x := by
  have hkey : c.joined = some flight → c.key = k := fun hjoined =>
    hs.keys flight _ _ ⟨i, c, hc, hjoined, rfl⟩ (hs.table k flight hold)
  have hat {p : Phase V} (hphase : c.phase = p) : Minds { c with phase := p } flight x := by
    subst hphase
    exact hminds
  obtain ⟨c', hc', hmove⟩ := h.move hc
  cases hmove with
  | rest _ => exact ⟨i, c, hc', hminds⟩
  | raise => exact ⟨i, _, hc', hminds⟩
  | inspect hphase =>
    obtain ⟨hflight, hvacant⟩ := hat hphase
    exact ⟨i, _, hc', hflight, hvacant⟩
  | hit hphase _ => exact (hat hphase).elim
  | join hphase _ _ => exact (hat hphase).elim
  | create hphase _ _ => exact (hat hphase).elim
  | refuse hphase _ _ =>
    obtain ⟨rfl, -⟩ := hat hphase
    exact absurd hphase (hrest i c rfl hc).1
  | start hphase _ _ =>
    obtain ⟨rfl, -⟩ := hat hphase
    exact absurd hphase (hrest i c rfl hc).1
  | finish hphase =>
    obtain ⟨rfl, -⟩ := hat hphase
    exact absurd hphase (hrest i c rfl hc).2
  | unwind hphase =>
    obtain ⟨rfl, -⟩ := hat hphase
    exact absurd hphase (hrest i c rfl hc).2
  | observe hphase hcell =>
    obtain ⟨rfl, rfl⟩ := hat hphase
    cases hx.symm.trans hcell
  | leave hphase =>
    -- a request on its way out leaves a flight alone only if it has an outcome
    obtain ⟨rfl, rfl⟩ := hat hphase
    cases h with
    | leave hd hphase' hcell =>
      cases hc.symm.trans hd
      cases hphase.symm.trans hphase'
      cases hx.symm.trans hcell
    | inspect hd _ _ =>
      cases hc.symm.trans hd
      cases hc'.symm.trans (callers_self hd _)
  | drop hphase =>
    obtain ⟨rfl, -⟩ := hat hphase
    obtain rfl := hkey (hs.dropping hc hphase).1
    cases hnew.symm.trans (h.lookup_dropped hc hphase hold)
  | publish hphase =>
    obtain ⟨rfl, -⟩ := hat hphase
    obtain rfl := hkey (hs.publishing hc hphase).1
    cases hnew.symm.trans (h.lookup_published hc hphase hold)

/-- A flight that is new in the table is minded by the request that joined it. -/
theorem Sound.minds_new (hs : s.Sound) (h : Step s a s') (hserves : s'.Serves s.cells.length k) :
    ∃ (j : Nat) (d : Caller V), s'.callers[j]? = some d ∧ Minds d s.cells.length .vacant := by
  obtain ⟨j, d', hd', hjoined, -⟩ := hserves
  rcases h.origin hd' with ⟨d, hd, hmove⟩ | ⟨key, raised, -, -, rfl⟩
  · cases hmove with
    | join _ _ _ => exact ⟨j, _, hd', Option.some.inj hjoined, rfl⟩
    | create _ _ _ => exact ⟨j, _, hd', Option.some.inj hjoined, rfl⟩
    | _ => exact absurd ((hs.phases j _ hd).lt hjoined) (Nat.lt_irrefl _)
  · cases hjoined

/-- **Every step keeps the flights of the table minded.** -/
theorem Manned.step (hs : s.Sound) (hm : s.Manned) (h : Step s a s') : s'.Manned := by
  intro k flight y hnew hy
  have hlt {x : Cell V} (hx : s.cells[flight]? = some x) : flight ≠ s.cells.length :=
    Nat.ne_of_lt (List.getElem?_eq_some_iff.1 hx).1
  rcases hs.turn_origin h hy with ⟨x, hx, hturn⟩ | ⟨rfl, rfl⟩
  · have hold : s.cache.inflight.lookup k = some flight :=
      (hs.of_lookup_step h hnew).resolve_right fun ⟨hlast, _⟩ => hlt hx hlast
    cases hturn with
    | rest hrest =>
      obtain ⟨i, c, hc, hminds⟩ := hm k flight y hold hx
      exact hs.minds_rest h hold hnew hx hc hminds hrest
    | @refuse i c hc hphase hraised =>
      obtain ⟨c', hc', hmove⟩ := h.move hc
      cases hmove with
      | rest hne => exact absurd rfl hne
      | refuse hphase' _ _ =>
        cases hphase.symm.trans hphase'
        exact ⟨i, _, hc', rfl, rfl⟩
      | start _ _ hraised' => cases hraised.symm.trans hraised'
    | @start i c hc hphase hraised =>
      obtain ⟨c', hc', hmove⟩ := h.move hc
      cases hmove with
      | rest hne => exact absurd rfl hne
      | refuse _ _ hraised' => cases hraised.symm.trans hraised'
      | start hphase' _ _ =>
        cases hphase.symm.trans hphase'
        exact ⟨i, _, hc', rfl, rfl⟩
    | @finish i c result hc hphase =>
      obtain ⟨c', hc', hmove⟩ := h.move hc
      cases hmove with
      | rest hne => exact absurd rfl hne
      | finish hphase' =>
        cases hphase.symm.trans hphase'
        exact ⟨i, _, hc', rfl, rfl⟩
    | @unwind i c hc hphase =>
      obtain ⟨c', hc', hmove⟩ := h.move hc
      cases hmove with
      | rest hne => exact absurd rfl hne
      | unwind hphase' =>
        cases hphase.symm.trans hphase'
        exact ⟨i, _, hc', rfl, rfl⟩
  · rcases hs.of_lookup_step h hnew with hold | ⟨-, hserves⟩
    · exact absurd (hs.lt (hs.table _ _ hold)) (Nat.lt_irrefl _)
    · exact hs.minds_new h hserves

/-- **When no request is in progress, no flight is left.** -/
theorem Manned.drained (hs : s.Sound) (hm : s.Manned) (hidle : s.Idle) : s.cache.inflight = [] := by
  cases hinflight : s.cache.inflight with
  | nil => rfl
  | cons entry rest =>
    obtain ⟨k, flight⟩ := entry
    have hlookup : s.cache.inflight.lookup k = some flight := by
      rw [hinflight, Table.lookup_pair, if_pos rfl]
    have hlt := hs.lt (hs.table k flight hlookup)
    obtain ⟨i, c, hc, hminds⟩ := hm k flight _ hlookup (List.getElem?_eq_getElem hlt)
    exact absurd (hidle c (List.mem_of_getElem? hc)) (by rw [hminds.isOver_eq]; exact Bool.false_ne_true)

theorem manned_empty (capacity : Option Nat) : (empty capacity : State V).Manned := by
  rintro k flight x ⟨⟩

theorem Idle.callersIn_isHolding (hidle : s.Idle) : s.callersIn Phase.isHolding = 0 := by
  have hover : ∀ phase : Phase V, phase.isOver = true → phase.isHolding = false := by
    intro phase h
    cases phase <;> simp [Phase.isOver, Phase.isHolding] at h ⊢
  exact List.countP_eq_zero.2 fun c hc => by rw [hover _ (hidle c hc)]; exact Bool.false_ne_true

/-- **The counters balance, and no flight is left behind.** In every state that overlapping requests lead to,
whatever their builders do, and whatever is dropped meanwhile, there have been as many hits and misses as
requests that looked their keys up, no more builds than misses, and no more failures than builds. If no
request is in progress, there is no flight, and every build has been published as a value, counted as a
failure, or has unwound. -/
theorem counters_balance (capacity : Option Nat) (actions : List (Action V)) :
    ((empty capacity).run actions).cache.stats.hits + ((empty capacity).run actions).cache.stats.misses =
        ((empty capacity).steps actions).countP isLookup ∧
      ((empty capacity).run actions).cache.stats.builds ≤
        ((empty capacity).run actions).cache.stats.misses ∧
      ((empty capacity).run actions).cache.stats.failures ≤
        ((empty capacity).run actions).cache.stats.builds ∧
      (((empty capacity).run actions).Idle →
        ((empty capacity).run actions).cache.inFlight = 0 ∧
        ((empty capacity).run actions).cache.stats.builds =
          ((empty capacity).steps actions).countP isSuccess +
            ((empty capacity).run actions).cache.stats.failures +
            ((empty capacity).steps actions).countP isUnwind) := by
  have hsound := (sound_empty (V := V) capacity).run actions
  have hmanned : ((empty capacity).run actions).Manned :=
    (sound_empty capacity).run_keeps (A := fun _ => True) (fun _ _ => trivial) (manned_empty capacity)
      fun _ _ _ _ ht hm h => hm.step ht h
  obtain ⟨hlookups, hmisses, hbuilds⟩ := (balanced_empty capacity).run actions
  rw [List.nil_append] at hlookups hmisses hbuilds
  refine ⟨hlookups, by omega, by omega, fun hidle => ⟨?_, ?_⟩⟩
  · rw [Cache.inFlight, hmanned.drained hsound hidle]
    rfl
  · rw [hbuilds, hidle.callersIn_isHolding, Nat.add_zero]

/-- The first of two requests unwinds, and drops the flight that the second has taken over; a third finds no
flight and fails, the second gives a value, which a fourth finds before it is dropped. -/
def takeover (k : Key) : List (Action Nat) :=
  [.arrive k false, .arrive k false, .lookup 0, .lookup 1, .start 0, .unwind 0, .start 1, .inspect 0, .drop 0,
    .arrive k false, .lookup 2, .start 2, .finish 2 (.error (.io "read" "refused")), .publish 2,
    .finish 1 (.ok 5), .publish 1, .arrive k false, .lookup 3, .invalidate k]

theorem counters_balance_takeover :
    ((empty none).run (takeover (.fill 7))).Idle ∧
      ((empty none).run (takeover (.fill 7))).cache.inFlight = 0 ∧
      ((empty none).run (takeover (.fill 7))).cache.stats.builds =
        ((empty none).steps (takeover (.fill 7))).countP isSuccess +
          ((empty none).run (takeover (.fill 7))).cache.stats.failures +
          ((empty none).steps (takeover (.fill 7))).countP isUnwind ∧
      ((empty none).run (takeover (.fill 7))).cache.stats = ⟨1, 3, 3, 1⟩ ∧
      ((empty none).steps (takeover (.fill 7))).length = (takeover (.fill 7)).length := by
  have hcallers : ((empty none).run (takeover (.fill 7))).callers =
      [⟨.fill 7, false, .unwound, some 0, true⟩, ⟨.fill 7, false, .returned (.ok 5), some 0, true⟩,
        ⟨.fill 7, false, .returned (.error (.io "read" "refused")), some 1, true⟩,
        ⟨.fill 7, false, .returned (.ok 5), none, false⟩] := rfl
  have hidle : ((empty none).run (takeover (.fill 7))).Idle := by
    intro c hc
    rw [hcallers] at hc
    simp only [List.mem_cons, List.not_mem_nil, or_false] at hc
    rcases hc with rfl | rfl | rfl | rfl <;> rfl
  obtain ⟨hflights, hbuilds⟩ := (counters_balance none (takeover (.fill 7))).2.2.2 hidle
  exact ⟨hidle, hflights, hbuilds, rfl, rfl⟩

end State

end OpFusion.Flight
