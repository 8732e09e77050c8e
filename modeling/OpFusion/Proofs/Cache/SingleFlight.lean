/-
  When at most one builder per key runs.

  As long as no builder unwinds, every flight for which a builder runs or can still run is in the table,
  so that later requests for its key join it (`Attached`). A request whose builder unwound drops its
  flight, and other requests may have a builder running for it by then, or be about to start one: such
  a drop severs the flight. Runs without one keep to one builder per key, and after one that severs a
  flight a second builder of its key can start (`singleFlight_iff`). Both happen: `overlap` is a run of
  three requests that ends with two builders of one key.
-/
import OpFusion.Proofs.Cache.Flights
import OpFusion.Proofs.Cache.Sequential

namespace OpFusion.Flight.State

variable {V : Type} {s s' : State V} {a : Action V} {i j : Nat} {c d d' : Caller V} {k : Key} {flight : Nat}

/-- At most one builder per key runs. -/
def SingleFlight (s : State V) : Prop :=
  ∀ (i j : Nat) (c d : Caller V) (f g : Nat), s.callers[i]? = some c → s.callers[j]? = some d →
    c.key = d.key → c.phase = .building f → d.phase = .building g → i = j

/-- A builder of the request runs for a flight, or can start for it. -/
def Live (s : State V) (c : Caller V) (flight : Nat) : Prop :=
  c.phase = .building flight ∨
    (c.phase = .waiting flight ∧ s.cells[flight]? = some .vacant ∧ c.raised = false)

/-- A step drops a flight for which the builder of another request runs or can start. -/
def Severs (s : State V) (a : Action V) : Prop :=
  ∃ (i j : Nat) (c d : Caller V) (flight : Nat), a = .drop i ∧ s.callers[i]? = some c ∧
    c.phase = .dropping flight ∧ s.cache.inflight.lookup c.key = some flight ∧
    s.callers[j]? = some d ∧ s.Live d flight

/-- A flight for which a builder runs or can start is the flight of its key. -/
def Attached (s : State V) : Prop :=
  ∀ (i : Nat) (c : Caller V) (flight : Nat), s.callers[i]? = some c → s.Live c flight →
    s.cache.inflight.lookup c.key = some flight

theorem Live.joined (hs : s.Sound) (hd : s.callers[j]? = some d) (h : s.Live d flight) :
    d.joined = some flight := by
  rcases h with hphase | ⟨hphase, -⟩
  · exact (hs.building hd hphase).1
  · exact (hs.waiting hd hphase).1

theorem Live.not_settled (hs : s.Sound) (hd : s.callers[j]? = some d) (h : s.Live d flight)
    (outcome : Except Error V) : s.cells[flight]? ≠ some (.settled outcome) := by
  intro hcell
  rcases h with hphase | ⟨-, hvacant, -⟩
  · exact absurd (hcell.symm.trans (hs.building hd hphase).2) nofun
  · exact absurd (hcell.symm.trans hvacant) nofun

/-- Builders with a key each in the table are one per key. -/
theorem Attached.singleFlight (hs : s.Sound) (ha : s.Attached) : s.SingleFlight := by
  intro i j c d f g hc hd hkey hf hg
  have hlookup := ha i c f hc (.inl hf)
  rw [hkey, ha j d g hd (.inl hg)] at hlookup
  cases hlookup
  exact hs.exclusive i j c d f hc hd (.inl hf) (.inl hg)

/-! ## One step -/

/-- What a request can build for after a step it could build for before, or it joins the flight with
the step, or the builder of the flight unwinds. -/
theorem Sound.of_live_step (hs : s.Sound) (h : Step s a s') (hd : s.callers[j]? = some d)
    (hmove : Move s j a d d') (hlive : s'.Live d' flight) :
    s.Live d flight ∨ (a = .lookup j ∧ d'.phase = .waiting flight) ∨
      ∃ (i : Nat) (c : Caller V), a = .unwind i ∧ s.callers[i]? = some c ∧
        c.phase = .building flight ∧ d.joined = some flight := by
  have hnot {p : Phase V} (hp : d'.phase = p) (hb : p ≠ .building flight) (hw : p ≠ .waiting flight) :
      False := by
    rcases hlive with hphase | ⟨hphase, -⟩
    · exact hb (hp.symm.trans hphase)
    · exact hw (hp.symm.trans hphase)
  cases hmove with
  | rest _ =>
    rcases hlive with hphase | ⟨hphase, hcell, hraised⟩
    · exact .inl (.inl hphase)
    · obtain ⟨hjoined, hlt⟩ := hs.waiting hd hphase
      rcases hs.of_vacant_step h hcell with hcell | hnew | ⟨i, c, ha, hc, hb⟩
      · exact .inl (.inr ⟨hphase, hcell, hraised⟩)
      · exact absurd hlt (hnew ▸ Nat.lt_irrefl _)
      · exact .inr (.inr ⟨i, c, ha, hc, hb, hjoined⟩)
  | raise =>
    rcases hlive with hphase | ⟨-, -, hraised⟩
    · exact .inl (.inl hphase)
    · cases hraised
  | join _ _ _ =>
    rcases hlive with hb | ⟨hw, -⟩
    · cases hb
    · exact .inr (.inl ⟨rfl, hw⟩)
  | create _ _ _ =>
    rcases hlive with hb | ⟨hw, -⟩
    · cases hb
    · exact .inr (.inl ⟨rfl, hw⟩)
  | start hphase hcell hraised =>
    rcases hlive with hb | ⟨hw, -⟩
    · cases hb
      exact .inl (.inr ⟨hphase, hcell, hraised⟩)
    · cases hw
  | _ => exact (hnot rfl nofun nofun).elim

/-- **Only a step that severs a flight can detach one.** -/
theorem Attached.step (hs : s.Sound) (ha : s.Attached) (h : Step s a s') (hsever : ¬ s.Severs a) :
    s'.Attached := by
  intro j d' flight hd' hlive
  rcases h.origin hd' with ⟨d, hd, hmove⟩ | ⟨key, raised, -, -, rfl⟩
  · have hkey := (hs.kept hd hmove).1
    rcases hs.of_live_step h hd hmove hlive with hold | ⟨rfl, hphase⟩ | ⟨i, c, rfl, hc, hb, hjoined⟩
    · -- the flight was there, and is neither severed nor published
      have hlookup := ha j d flight hd hold
      rw [hkey]
      rcases h.lookup_inflight hlookup with hkept | ⟨i, c, hc, hck, ⟨rfl, hphase⟩ | ⟨rfl, outcome, hphase⟩⟩
      · exact hkept
      · exact absurd ⟨i, j, c, d, flight, rfl, hc, hphase, hck ▸ hlookup, hd, hold⟩ hsever
      · exact absurd (hs.publishing hc hphase).2 (hold.not_settled hs hd outcome)
    · exact h.lookup_joined hd' hphase
    · -- the request whose builder unwinds has the same key
      have hck : c.key = d.key := hs.keys flight _ _ ⟨i, c, hc, (hs.building hc hb).1, rfl⟩
        ⟨j, d, hd, hjoined, rfl⟩
      have hlookup := ha i c flight hc (.inl hb)
      rw [hkey, ← hck]
      rcases h.lookup_inflight hlookup with hkept | ⟨i', c', -, -, ⟨hne, -⟩ | ⟨hne, -⟩⟩
      · exact hkept
      · cases hne
      · cases hne
  · rcases hlive with hphase | ⟨hphase, -⟩ <;> cases raised <;> cases hphase

/-! ## Runs -/

theorem attached_empty (capacity : Option Nat) : (empty capacity : State V).Attached := by
  rintro i c flight ⟨⟩

theorem Attached.run {actions : List (Action V)} (hs : s.Sound) (ha : s.Attached)
    (hsever : ∀ n a, actions[n]? = some a → ¬ (s.run (actions.take n)).Severs a) :
    (s.run actions).Attached := by
  induction actions generalizing s with
  | nil => exact ha
  | cons a rest ih =>
    have hrest (n : Nat) (b : Action V) (hb : rest[n]? = some b) :
        ¬ (((s.step? a).getD s).run (rest.take n)).Severs b := hsever (n + 1) b hb
    show (((s.step? a).getD s).run rest).Attached
    cases hs' : s.step? a with
    | none =>
      rw [hs'] at hrest
      exact ih hs ha hrest
    | some s' =>
      rw [hs'] at hrest
      have hstep := step_of_step? hs'
      exact ih (hs.step hstep) (ha.step hs hstep (hsever 0 a rfl)) hrest

/-! ## Flights that are severed -/

/-- While a builder runs for a flight that is not in the table, another for its key can start. -/
theorem Sound.overlap_of_building (hs : s.Sound) (hd : s.callers[j]? = some d)
    (hphase : d.phase = .building flight) (hnone : s.cache.inflight.lookup d.key = none) :
    ∃ rest, (∀ i, .drop i ∉ rest) ∧ ¬ (s.run rest).SingleFlight := by
  let t : State V := { s with cache := s.cache.invalidate d.key }
  have huse : t.cache.ready.use? d.key = none := by
    rw [Recency.use?, Option.map_eq_none_iff]
    exact (Recency.peek_erase s.cache.ready d.key d.key).trans (if_pos rfl)
  have hask : (t.ask d.key false).2 = t.opened d.key :=
    congrArg Prod.snd (ask_miss (s := t) hs.next hnone huse)
  refine ⟨.invalidate d.key :: [.arrive d.key false, .lookup s.callers.length,
    .start s.callers.length, .publish s.callers.length], ?_, fun hsingle => ?_⟩
  · simp
  · change (t.ask d.key false).2.SingleFlight at hsingle
    rw [hask] at hsingle
    have hlt := (List.getElem?_eq_some_iff.1 hd).1
    have hj : (t.opened d.key).callers[j]? = some d :=
      (callers_concat s _ j).trans ((if_neg (Nat.ne_of_gt hlt)).trans hd)
    have hnew := (callers_concat s
      ⟨d.key, false, .building t.cache.nextFlight, some t.cache.nextFlight, true⟩ _).trans (if_pos rfl)
    exact absurd (hsingle j s.callers.length d _ flight _ hj hnew rfl hphase rfl) (Nat.ne_of_lt hlt)

theorem Sound.overlap_of_live (hs : s.Sound) (hd : s.callers[j]? = some d) (hlive : s.Live d flight)
    (hnone : s.cache.inflight.lookup d.key = none) :
    ∃ rest, (∀ i, .drop i ∉ rest) ∧ ¬ (s.run rest).SingleFlight := by
  rcases hlive with hphase | ⟨hphase, hcell, hraised⟩
  · exact hs.overlap_of_building hd hphase hnone
  · have ht : s.step? (.start j) = some (s.start j d flight) := by simp [step?, hd, hphase, hcell]
    have hstart : s.start j d flight = ({ s with cache := s.cache.begin }.setCell flight
        .running).setCaller j { d with phase := .building flight, ran := true } :=
      if_neg (by rw [hraised]; exact Bool.false_ne_true)
    have hd' : (s.start j d flight).callers[j]? =
        some { d with phase := .building flight, ran := true } := by
      rw [hstart]
      exact callers_self hd _
    have hlookup : (s.start j d flight).cache.inflight.lookup d.key = none := by
      rw [hstart]
      exact hnone
    obtain ⟨rest, hdrop, hoverlap⟩ :=
      (hs.step (step_of_step? ht)).overlap_of_building hd' rfl hlookup
    refine ⟨.start j :: rest, fun i hi => ?_, ?_⟩
    · rcases List.mem_cons.1 hi with hi | hi
      · cases hi
      · exact hdrop i hi
    · show ¬ (((s.step? (.start j)).getD s).run rest).SingleFlight
      rw [ht]
      exact hoverlap

/-- **After a step that severs a flight, two builders of its key can run at once.** -/
theorem Severs.overlap (hs : s.Sound) (h : s.Severs a) :
    ∃ rest, (∀ i, .drop i ∉ rest) ∧ ¬ (s.run (a :: rest)).SingleFlight := by
  obtain ⟨i, j, c, d, flight, rfl, hc, hphase, hlookup, hd, hlive⟩ := h
  have ht : s.step? (.drop i) =
      some ({ s with cache := s.cache.dropFlight c.key flight }.setPhase i c .unwound) := by
    simp [step?, hc, hphase]
  have hkey : d.key = c.key := hs.keys flight _ _ ⟨j, d, hd, hlive.joined hs hd, rfl⟩
    ⟨i, c, hc, (hs.dropping hc hphase).1, rfl⟩
  have hij : i ≠ j := by
    rintro rfl
    cases hc.symm.trans hd
    rcases hlive with h | ⟨h, -⟩ <;> cases hphase.symm.trans h
  have hd' := (callers_setCaller hc { c with phase := .unwound } j).trans ((if_neg hij).trans hd)
  have hnone : (s.cache.dropFlight c.key flight).inflight.lookup d.key = none := by
    rw [Cache.lookup_dropFlight, if_pos ⟨hkey, hlookup⟩]
  obtain ⟨rest, hdrop, hoverlap⟩ := (hs.step (step_of_step? ht)).overlap_of_live hd' hlive hnone
  refine ⟨rest, hdrop, ?_⟩
  show ¬ (((s.step? (.drop i)).getD s).run rest).SingleFlight
  rw [ht]
  exact hoverlap

/-- **Which runs keep to one builder per key**: those in which no request drops a flight for which the
builder of another runs or can start, however they go on. -/
theorem singleFlight_iff (capacity : Option Nat) (actions : List (Action V)) :
    (∀ n a, actions[n]? = some a → ¬ ((empty capacity).run (actions.take n)).Severs a) ↔
      ∀ n rest, (∀ i, .drop i ∉ rest) →
        ((empty capacity).run (actions.take n ++ rest)).SingleFlight := by
  constructor
  · intro hsever n rest hdrop
    have hsound := (sound_empty capacity).run (actions.take n)
    have hattached : ((empty capacity).run (actions.take n)).Attached := by
      refine (attached_empty capacity).run (sound_empty capacity) fun m a hm => ?_
      rw [List.getElem?_take] at hm
      split at hm
      · next hlt =>
        rw [List.take_take, Nat.min_eq_left (Nat.le_of_lt hlt)]
        exact hsever m a hm
      · cases hm
    rw [run_append]
    refine (hattached.run hsound fun m a hm hsevers => ?_).singleFlight (hsound.run rest)
    obtain ⟨i, -, -, -, -, rfl, -⟩ := hsevers
    exact hdrop i (List.mem_of_getElem? hm)
  · intro hsingle n a ha hsevers
    obtain ⟨rest, hdrop, hoverlap⟩ := hsevers.overlap ((sound_empty capacity).run (actions.take n))
    have htake : actions.take (n + 1) = actions.take n ++ [a] := by
      rw [List.take_add_one, ha]
      rfl
    refine hoverlap ?_
    rw [← run_append, ← List.singleton_append, ← List.append_assoc, ← htake]
    exact hsingle (n + 1) rest hdrop

/-- The first of two requests for a key unwinds, and drops the flight after the second has started on
it; a third request finds no flight. -/
def overlap (k : Key) : List (Action V) :=
  [.arrive k false, .arrive k false, .lookup 0, .lookup 1, .start 0, .unwind 0, .start 1, .inspect 0,
    .drop 0, .arrive k false, .lookup 2, .start 2]

/-- Two builders of one key run at once. -/
theorem not_singleFlight_overlap :
    ∀ (V : Type) (capacity : Option Nat) (k : Key),
      ¬ ((empty capacity : State V).run (overlap k)).SingleFlight := by
  intro V capacity k h
  have hrun : ((empty capacity : State V).run (overlap k)).callers =
      [⟨k, false, .unwound, some 0, true⟩, ⟨k, false, .building 0, some 0, true⟩,
        ⟨k, false, .building 1, some 1, true⟩] := by
    simp [overlap, run, step?, empty, Cache.empty, arrive, lookup, Cache.lookup, Recency.use?,
      Recency.peek, start, Cache.begin, setCell, setCaller, setPhase, inspect, Cache.dropFlight,
      Table.erase]
  have hsecond : ((empty capacity : State V).run (overlap k)).callers[1]? =
      some ⟨k, false, .building 0, some 0, true⟩ := by rw [hrun]; rfl
  have hthird : ((empty capacity : State V).run (overlap k)).callers[2]? =
      some ⟨k, false, .building 1, some 1, true⟩ := by rw [hrun]; rfl
  exact absurd (h 1 2 _ _ 0 1 hsecond hthird rfl rfl rfl) (by decide)

end OpFusion.Flight.State
