/-
  Requests that share a flight agree, as long as no builder unwinds.

  Every request can be brought to an answer, and its answer is at once or the outcome of the one flight
  that it joined. A flight is started once; its outcome is what the builder of the starter returns, or a
  cancellation if the token of the starter was raised by then. Only values become ready, and a flight is
  gone once its outcome is published. `agreement` says all of this of every run.
-/
import OpFusion.Proofs.Cache.History

namespace OpFusion.Flight

variable {V : Type}

/-- The builder of the request unwound. -/
def Caller.Unwinds (c : Caller V) : Prop :=
  match c.phase with
  | .unwinding _ | .dropping _ | .unwound => True
  | _ => False

namespace State

variable {s s' t t' u u' : State V} {actions : List (Action V)} {a : Action V}
  {i j m n : Nat} {c d d' : Caller V} {k : Key} {flight : Nat} {outcome : Except Error V}

/-! ## Without unwinding -/

/-- A request has a flight in hand, or can start on it. -/
def Owed (s : State V) (c : Caller V) (flight : Nat) : Prop :=
  c.Holds flight ∨ (c.phase = .waiting flight ∧ s.cells[flight]? = some .vacant)

/-- What holds in every state as long as no builder unwinds. -/
structure Calm (s : State V) : Prop where
  phases : ∀ (i : Nat) (c : Caller V), s.callers[i]? = some c → ¬ c.Unwinds
  /-- A flight stays in the table until it is published. -/
  current : ∀ (i : Nat) (c : Caller V) (flight : Nat), s.callers[i]? = some c → s.Owed c flight →
    s.cache.inflight.lookup c.key = some flight
  builder : ∀ flight, s.cells[flight]? = some .running →
    ∃ (i : Nat) (c : Caller V), s.callers[i]? = some c ∧ c.phase = .building flight

theorem calm_empty (capacity : Option Nat) : (empty capacity : State V).Calm where
  phases := by rintro i c ⟨⟩
  current := by rintro i c flight ⟨⟩
  builder := by rintro flight ⟨⟩

theorem Move.unwinds (h : Move s j a d d') (hd' : d'.Unwinds) : d.Unwinds ∨ a = .unwind j := by
  cases h with
  | rest _ => exact .inl hd'
  | raise => exact .inl hd'
  | unwind _ => exact .inr rfl
  | leave hphase => exact .inl (by rw [Caller.Unwinds, hphase]; trivial)
  | inspect hphase => exact .inl (by rw [Caller.Unwinds, hphase]; trivial)
  | drop hphase => exact .inl (by rw [Caller.Unwinds, hphase]; trivial)
  | _ => exact hd'.elim

theorem Calm.phases_step (hcalm : s.Calm) (h : Step s a s') (ha : ∀ i, a ≠ .unwind i)
    (hd' : s'.callers[j]? = some d') : ¬ d'.Unwinds := by
  intro hunwinds
  rcases h.origin hd' with ⟨d, hd, hmove⟩ | ⟨key, raised, -, -, rfl⟩
  · rcases hmove.unwinds hunwinds with hold | hunwind
    · exact hcalm.phases j d hd hold
    · exact ha j hunwind
  · cases raised <;> exact hunwinds

/-- What a request owes after a step it owed before, or it joins the flight with the step. -/
theorem Sound.of_owed_step (hs : s.Sound) (h : Step s a s') (ha : ∀ i, a ≠ .unwind i)
    (hd : s.callers[j]? = some d) (hmove : Move s j a d d') (howed : s'.Owed d' flight) :
    s.Owed d flight ∨ (a = .lookup j ∧ d'.phase = .waiting flight) := by
  have hvacant (hwaiting : d.phase = .waiting flight) (hcell : s'.cells[flight]? = some .vacant) :
      s.Owed d flight := by
    rcases hs.of_vacant_step h hcell with hold | hnew | ⟨i, -, hunwind, -⟩
    · exact .inr ⟨hwaiting, hold⟩
    · exact absurd (hs.waiting hd hwaiting).2 (hnew ▸ Nat.lt_irrefl _)
    · exact absurd hunwind (ha i)
  rcases howed with hholds | ⟨hwaiting, hcell⟩
  · rcases hmove.holds hholds with hold | ⟨hstart, hcell⟩
    · exact .inl (.inl hold)
    · cases hmove with
      | rest hother => exact absurd (congrArg Action.caller? hstart) hother
      | refuse hphase hvacant _ =>
        rcases hholds with hb | ⟨outcome, hb⟩ <;> cases hb
        exact .inl (.inr ⟨hphase, hcell⟩)
      | start hphase _ _ =>
        rcases hholds with hb | ⟨outcome, hb⟩ <;> cases hb
        exact .inl (.inr ⟨hphase, hcell⟩)
      | _ => cases hstart
  · cases hmove with
    | rest _ => exact .inl (hvacant hwaiting hcell)
    | raise => exact .inl (hvacant hwaiting hcell)
    | join _ _ _ => exact .inr ⟨rfl, hwaiting⟩
    | create _ _ _ => exact .inr ⟨rfl, hwaiting⟩
    | _ => cases hwaiting

theorem Calm.current_step (hs : s.Sound) (hcalm : s.Calm) (h : Step s a s')
    (ha : ∀ i, a ≠ .unwind i) (hd' : s'.callers[j]? = some d') (howed : s'.Owed d' flight) :
    s'.cache.inflight.lookup d'.key = some flight := by
  rcases h.origin hd' with ⟨d, hd, hmove⟩ | ⟨key, raised, -, -, rfl⟩
  · rcases hs.of_owed_step h ha hd hmove howed with hold | ⟨rfl, hphase⟩
    · have hlookup := hcalm.current j d flight hd hold
      rw [(hs.kept hd hmove).1]
      rcases h.lookup_inflight hlookup with hkept | ⟨i, c, hc, -, ⟨-, hphase⟩ | ⟨rfl, outcome, hphase⟩⟩
      · exact hkept
      · exact absurd (by rw [Caller.Unwinds, hphase]; trivial) (hcalm.phases i c hc)
      · -- the flight is published, so that nobody but the publisher owed it
        have hcell := (hs.publishing hc hphase).2
        rcases hold with hholds | ⟨-, hvacant⟩
        · obtain rfl := hs.exclusive i j c d flight hc hd (.inr ⟨outcome, hphase⟩) hholds
          cases hmove with
          | rest hother => exact absurd rfl hother
          | publish _ => rcases howed with (hb | ⟨outcome, hb⟩) | ⟨hb, -⟩ <;> cases hb
        · cases hcell.symm.trans hvacant
    · exact h.lookup_joined hd' hphase
  · rcases howed with (hb | ⟨outcome, hb⟩) | ⟨hb, -⟩ <;> cases raised <;> cases hb

theorem Calm.builder_step (hs : s.Sound) (hcalm : s.Calm) (h : Step s a s')
    (hcell : s'.cells[flight]? = some .running) :
    ∃ (i : Nat) (c : Caller V), s'.callers[i]? = some c ∧ c.phase = .building flight := by
  rcases hs.turn_origin h hcell with ⟨x, hx, hturn⟩ | ⟨-, hvacant⟩
  · cases hturn with
    | rest hother =>
      obtain ⟨i, c, hc, hphase⟩ := hcalm.builder flight hx
      obtain ⟨c', hc', hmove⟩ := h.move hc
      refine ⟨i, c', hc', ?_⟩
      cases hmove with
      | rest _ => exact hphase
      | raise => exact hphase
      | finish _ => exact absurd hphase (hother i _ rfl hc).2
      | unwind _ => exact absurd hphase (hother i _ rfl hc).2
      | _ => simp_all
    | @start i c hc hphase hraised =>
      obtain ⟨c', hc', hmove⟩ := h.move hc
      refine ⟨i, c', hc', ?_⟩
      cases hmove with
      | rest hother => exact absurd rfl hother
      | start hphase' _ _ => cases hphase.symm.trans hphase'; rfl
      | refuse _ _ hraised' => cases hraised.symm.trans hraised'
  · cases hvacant

theorem Calm.step (hs : s.Sound) (hcalm : s.Calm) (h : Step s a s') (ha : ∀ i, a ≠ .unwind i) :
    s'.Calm where
  phases _ _ := hcalm.phases_step h ha
  current _ _ _ := hcalm.current_step hs h ha
  builder _ := hcalm.builder_step hs h

theorem Calm.run (hs : s.Sound) (hcalm : s.Calm) (hactions : ∀ i, .unwind i ∉ actions) :
    (s.run actions).Calm :=
  hs.run_keeps (A := fun a => ∀ i, a ≠ .unwind i) (fun _ ha i h => hactions i (h ▸ ha)) hcalm
    fun _ _ _ ha ht hcalm h => hcalm.step ht h ha

/-! ## Every request can be answered -/

/-- The run can go on so that a request returns. -/
def Returns (s : State V) (i : Nat) : Prop :=
  ∃ rest, (∀ j, .unwind j ∉ rest) ∧ ∃ (c : Caller V) (outcome : Except Error V),
    (s.run rest).callers[i]? = some c ∧ c.phase = .returned outcome

theorem returns_of_returned (hc : s.callers[i]? = some c) (hphase : c.phase = .returned outcome) :
    s.Returns i := ⟨[], by simp, c, outcome, hc, hphase⟩

theorem Returns.of_step (h : s'.Returns i) (hstep : Step s a s') (ha : ∀ j, a ≠ .unwind j) :
    s.Returns i := by
  obtain ⟨rest, hrest, hreturned⟩ := h
  refine ⟨a :: rest, fun j hj => ?_, ?_⟩
  · rcases List.mem_cons.1 hj with hj | hj
    · exact ha j hj.symm
    · exact hrest j hj
  · show ∃ (c : Caller V) (outcome : Except Error V),
      (((s.step? a).getD s).run rest).callers[i]? = some c ∧ c.phase = .returned outcome
    rw [hstep.step?_eq]
    exact hreturned

theorem returns_of_publishing (hc : s.callers[i]? = some c)
    (hphase : c.phase = .publishing flight outcome) : s.Returns i := by
  refine Returns.of_step ?_ (.publish hc hphase) nofun
  exact returns_of_returned (callers_self hc _) rfl

theorem returns_of_building (hc : s.callers[i]? = some c) (hphase : c.phase = .building flight) :
    s.Returns i := by
  refine Returns.of_step ?_ (.finish (.error .cancelled) hc hphase) nofun
  exact returns_of_publishing (callers_self hc _) rfl

theorem returns_of_settled (hc : s.callers[i]? = some c) (hphase : c.phase = .waiting flight)
    (hcell : s.cells[flight]? = some (.settled outcome)) : s.Returns i := by
  refine Returns.of_step ?_ (.observe hc hphase hcell) nofun
  exact returns_of_returned (callers_self hc _) rfl

theorem returns_of_vacant (hc : s.callers[i]? = some c) (hphase : c.phase = .waiting flight)
    (hcell : s.cells[flight]? = some .vacant) : s.Returns i := by
  cases hraised : c.raised with
  | true =>
    refine Returns.of_step ?_ (.refuse hc hphase hcell hraised) nofun
    exact returns_of_publishing (callers_self hc _) rfl
  | false =>
    refine Returns.of_step ?_ (.start hc hphase hcell hraised) nofun
    exact returns_of_building (callers_self hc _) rfl

/-- A request that waits for the builder of another can return once that has returned. -/
theorem Calm.returns_of_running (hcalm : s.Calm) (hc : s.callers[i]? = some c)
    (hphase : c.phase = .waiting flight) (hcell : s.cells[flight]? = some .running) :
    s.Returns i := by
  obtain ⟨j, d, hd, hbuilding⟩ := hcalm.builder flight hcell
  have hij : j ≠ i := by
    rintro rfl
    cases hc.symm.trans hd
    cases hphase.symm.trans hbuilding
  have hlt := (List.getElem?_eq_some_iff.1 hcell).1
  refine Returns.of_step ?_ (.finish (.error .cancelled) hd hbuilding) nofun
  exact returns_of_settled ((callers_setCaller hd _ i).trans ((if_neg hij).trans hc)) hphase
    (List.getElem?_set_self hlt)

theorem Calm.returns_of_waiting (hs : s.Sound) (hcalm : s.Calm) (hc : s.callers[i]? = some c)
    (hphase : c.phase = .waiting flight) : s.Returns i := by
  have hlt := (hs.waiting hc hphase).2
  cases hcell : s.cells[flight] with
  | vacant => exact returns_of_vacant hc hphase (List.getElem?_eq_some_iff.2 ⟨hlt, hcell⟩)
  | running => exact hcalm.returns_of_running hc hphase (List.getElem?_eq_some_iff.2 ⟨hlt, hcell⟩)
  | settled outcome => exact returns_of_settled hc hphase (List.getElem?_eq_some_iff.2 ⟨hlt, hcell⟩)

theorem Calm.returns (hs : s.Sound) (hcalm : s.Calm) (hc : s.callers[i]? = some c) :
    s.Returns i := by
  have hunwinds := hcalm.phases i c hc
  rw [Caller.Unwinds] at hunwinds
  cases hphase : c.phase with
  | entered =>
    have hstep := step_lookup hc hphase
    obtain ⟨c', hc', hmove⟩ := hstep.move hc
    have hcalm' := hcalm.step hs hstep nofun
    refine Returns.of_step ?_ hstep nofun
    cases hmove with
    | rest hother => exact absurd rfl hother
    | hit _ _ => exact returns_of_returned hc' rfl
    | join _ _ _ => exact hcalm'.returns_of_waiting (hs.step hstep) hc' rfl
    | create _ _ _ => exact hcalm'.returns_of_waiting (hs.step hstep) hc' rfl
  | waiting flight => exact hcalm.returns_of_waiting hs hc hphase
  | building flight => exact returns_of_building hc hphase
  | publishing flight outcome => exact returns_of_publishing hc hphase
  | returned outcome => exact returns_of_returned hc hphase
  | unwinding flight => rw [hphase] at hunwinds; exact absurd trivial hunwinds
  | dropping flight => rw [hphase] at hunwinds; exact absurd trivial hunwinds
  | unwound => rw [hphase] at hunwinds; exact absurd trivial hunwinds

/-! ## Starts -/

/-- A request that starts finds its flight vacant and settles it or has its builder called. -/
theorem Sound.start_step (hs : s.Sound) (h : Step s (.start i) s') (hc : s.callers[i]? = some c)
    (hphase : c.phase = .waiting flight) :
    s.cells[flight]? = some .vacant ∧
      s'.cells[flight]? =
        some (if c.raised then .settled (.error .cancelled) else .running) ∧
      ∃ c', s'.callers[i]? = some c' ∧ c'.joined = some flight ∧ (c.raised = false → c'.ran = true) := by
  have hjoined := (hs.waiting hc hphase).1
  obtain ⟨c', hc', hmove⟩ := h.move hc
  cases hmove with
  | rest hother => exact absurd rfl hother
  | refuse hphase' hcell hraised =>
    cases hphase.symm.trans hphase'
    obtain ⟨y, hy, hturn⟩ := hs.turn h hcell
    rw [if_pos hraised]
    cases hturn with
    | rest hother => exact absurd hphase (hother i c rfl hc).1
    | refuse _ _ _ =>
      exact ⟨hcell, hy, _, hc', hjoined, fun hnot => absurd (hraised.symm.trans hnot) nofun⟩
    | start hc'' _ hnot =>
      cases hc.symm.trans hc''
      cases hraised.symm.trans hnot
  | start hphase' hcell hraised =>
    cases hphase.symm.trans hphase'
    obtain ⟨y, hy, hturn⟩ := hs.turn h hcell
    rw [if_neg (by rw [hraised]; exact Bool.false_ne_true)]
    cases hturn with
    | rest hother => exact absurd hphase (hother i c rfl hc).1
    | start _ _ _ => exact ⟨hcell, hy, _, hc', hjoined, fun _ => rfl⟩
    | refuse hc'' _ hnot =>
      cases hc.symm.trans hc''
      cases hraised.symm.trans hnot

theorem Starts.not_lt (hs : s.Sound) (hactions : ∀ i, .unwind i ∉ actions)
    (h : Starts s actions n i flight t c) (h' : Starts s actions m j flight u d) : ¬ n < m := by
  intro hlt
  obtain ⟨t', hh⟩ := h.happens
  obtain ⟨u', hh'⟩ := h'.happens
  obtain ⟨-, hcell, -⟩ := (hh.sound hs).start_step hh.step h.caller h.phase
  obtain ⟨hvacant, -⟩ := (hh'.sound hs).start_step hh'.step h'.caller h'.phase
  obtain ⟨rest, hrest, rfl⟩ := hh.reaches hh' hlt
  refine ((hh.sound hs).step hh.step).taken_run (List.getElem?_eq_some_iff.1 hcell).1 ?_
    (fun i hi => hactions i (hrest _ hi)) hvacant
  rw [hcell]
  split <;> exact nofun

/-- **A flight is started once.** -/
theorem Starts.unique (hs : s.Sound) (hactions : ∀ i, .unwind i ∉ actions)
    (h : Starts s actions n i flight t c) (h' : Starts s actions m j flight u d) : m = n :=
  Nat.le_antisymm (Nat.le_of_not_lt (h.not_lt hs hactions h')) (Nat.le_of_not_lt (h'.not_lt hs hactions h))

/-- Two starts with one number are the same. -/
theorem Starts.eq (h : Starts s actions n i flight t c) (h' : Starts s actions n j flight u d) :
    j = i ∧ d = c := by
  obtain ⟨t', hh⟩ := h.happens
  obtain ⟨u', hh'⟩ := h'.happens
  cases hh.action.symm.trans hh'.action
  obtain rfl := hh.before.symm.trans hh'.before
  exact ⟨rfl, Option.some.inj (h'.caller.symm.trans h.caller)⟩

theorem Starts.joined (hs : s.Sound) (h : Starts s actions n i flight t c) :
    ∃ d, (s.run actions).callers[i]? = some d ∧ d.joined = some flight ∧
      (c.raised = false → d.ran = true) := by
  obtain ⟨t', hh⟩ := h.happens
  obtain ⟨-, -, c', hc', hjoined, hran⟩ := (hh.sound hs).start_step hh.step h.caller h.phase
  obtain ⟨d, hd, -, hjoined', hran'⟩ :=
    ((hh.sound hs).step hh.step).caller_run hc' (actions.drop (n + 1))
  rw [hh.run_drop]
  exact ⟨d, hd, hjoined' flight hjoined, fun h => hran' (hran h)⟩

/-- A starter whose token is raised settles the flight with a cancellation. -/
theorem Starts.cancelled (hs : s.Sound) (h : Starts s actions n i flight t c)
    (hraised : c.raised = true) :
    (s.run actions).cells[flight]? = some (.settled (.error .cancelled)) := by
  obtain ⟨t', hh⟩ := h.happens
  obtain ⟨-, hcell, -⟩ := (hh.sound hs).start_step hh.step h.caller h.phase
  rw [if_pos hraised] at hcell
  rw [hh.run_drop]
  exact ((hh.sound hs).step hh.step).settled_run hcell _

/-- A builder that returns settles the flight of its request. -/
theorem Finishes.settled {result : Except Error V} (hs : s.Sound)
    (h : Finishes s actions n i result t c) :
    ∃ flight d, (s.run actions).callers[i]? = some d ∧ d.joined = some flight ∧
      (s.run actions).cells[flight]? =
        some (.settled (if c.raised then .error .cancelled else result)) := by
  obtain ⟨t', hh⟩ := h.happens
  have ht := hh.sound hs
  rw [hh.run_drop]
  cases hh.step with
  | @finish _ c' flight _ hc hphase =>
    cases hc.symm.trans h.caller
    obtain ⟨hjoined, hcell⟩ := ht.building hc hphase
    obtain ⟨d, hd, -, hjoined', -⟩ :=
      (ht.step hh.step).caller_run (callers_self hc _) (actions.drop (n + 1))
    refine ⟨flight, d, hd, hjoined' flight hjoined, (ht.step hh.step).settled_run ?_ _⟩
    exact List.getElem?_set_self (List.getElem?_eq_some_iff.1 hcell).1

/-! ## Flights that are over -/

theorem Calm.lookup_publish (hcalm : s.Calm) (h : Step s (.publish i) s')
    (hc : s.callers[i]? = some c) (hphase : c.phase = .publishing flight outcome) :
    s'.cache.inflight.lookup c.key = none ∧
      ∀ e, outcome = .error e → s'.cache.ready = s.cache.ready := by
  have hcurrent := hcalm.current i c flight hc (.inl (.inr ⟨outcome, hphase⟩))
  cases h with
  | @publish _ c' f o hc' hphase' =>
    cases hc.symm.trans hc'
    cases hphase.symm.trans hphase'
    constructor
    · show (s.cache.publish c.key flight outcome).inflight.lookup c.key = none
      rw [Cache.inflight_publish, Cache.lookup_dropFlight, if_pos ⟨rfl, hcurrent⟩]
    · rintro e rfl
      exact Cache.ready_publish s.cache c.key flight (.error e)

/-- A key without a flight gets new ones only. -/
theorem Sound.lookup_run (hs : s.Sound) (hnone : s.cache.inflight.lookup k = none)
    (actions : List (Action V)) (h : (s.run actions).cache.inflight.lookup k = some flight) :
    s.cells.length ≤ flight := by
  have hnew : s.cells.length ≤ (s.run actions).cells.length ∧
      ∀ f, (s.run actions).cache.inflight.lookup k = some f → s.cells.length ≤ f := by
    refine hs.run_keeps (P := fun t => s.cells.length ≤ t.cells.length ∧
        ∀ f, t.cache.inflight.lookup k = some f → s.cells.length ≤ f)
      (A := fun _ => True) (fun _ _ => trivial) ⟨Nat.le_refl _, ?_⟩ ?_
    · intro f hf
      cases hf.symm.trans hnone
    · rintro t a t' - ht ⟨hlen, hnew⟩ hstep
      refine ⟨Nat.le_trans hlen hstep.length_cells, fun f hf => ?_⟩
      rcases ht.of_lookup_step hstep hf with hold | ⟨rfl, -⟩
      · exact hnew f hold
      · exact hlen
  exact hnew.2 flight h

/-! ## Agreement -/

/-- What the answers of a run have in common. -/
structure Agreement (s : State V) (actions : List (Action V)) : Prop where
  /-- Every request can be brought to its answer. -/
  returns : ∀ (i : Nat) (c : Caller V), (s.run actions).callers[i]? = some c →
    (s.run actions).Returns i
  /-- An answer is given at once, and then no builder is called, or is the outcome of the one flight
  that the request joined. -/
  answers : ∀ (i : Nat) (c : Caller V) (outcome : Except Error V),
    (s.run actions).callers[i]? = some c → c.phase = .returned outcome →
    (c.joined = none ∧ c.ran = false ∧ AtOnce s actions i c.key outcome) ∨
      ∃ flight, c.joined = some flight ∧ (s.run actions).cells[flight]? = some (.settled outcome)
  /-- Requests that joined the same flight give the same answer. -/
  agrees : ∀ (i j : Nat) (c d : Caller V) (flight : Nat) (o o' : Except Error V),
    (s.run actions).callers[i]? = some c → (s.run actions).callers[j]? = some d →
    c.joined = some flight → d.joined = some flight →
    c.phase = .returned o → d.phase = .returned o' → o = o'
  /-- A flight with an outcome was started once, and of those that joined it only the starter had its
  builder called, unless the token of the starter was raised by then. The outcome is a cancellation if
  it was raised when the request started or when its builder returned, and otherwise what the builder
  returned. -/
  started : ∀ (flight : Nat) (outcome : Except Error V),
    (s.run actions).cells[flight]? = some (.settled outcome) →
    ∃ n i t c, Starts s actions n i flight t c ∧
      (∀ m j u d, Starts s actions m j flight u d → m = n) ∧
      (∃ d, (s.run actions).callers[i]? = some d ∧ d.joined = some flight) ∧
      (∀ (j : Nat) (d : Caller V), (s.run actions).callers[j]? = some d → d.joined = some flight →
        (d.ran = true ↔ j = i ∧ c.raised = false)) ∧
      (c.raised = true → outcome = .error .cancelled) ∧
      (c.raised = false → ∃ m result u d, Finishes s actions m i result u d) ∧
      ∀ m result u d, Finishes s actions m i result u d →
        outcome = if d.raised then .error .cancelled else result
  /-- Ready values are outcomes of flights for their keys. -/
  resident : (s.run actions).Resident
  /-- A flight is gone once it is published, a failure leaves the ready values alone, and a request that
  looks the key up later and finds no value joins a flight that is new since. -/
  afresh : ∀ (p i : Nat) (t t' : State V) (c : Caller V) (flight : Nat) (outcome : Except Error V),
    Happens s actions p (.publish i) t t' → t.callers[i]? = some c →
    c.phase = .publishing flight outcome →
    t'.cache.inflight.lookup c.key = none ∧
      (∀ e, outcome = .error e → t'.cache.ready = t.cache.ready) ∧
      ∀ (n j : Nat) (u u' : State V) (d : Caller V) (next : Nat), p < n →
        Happens s actions n (.lookup j) u u' → u'.callers[j]? = some d → d.key = c.key →
        d.phase = .waiting next → t'.cells.length ≤ next

theorem Sound.returned (hs : s.Sound) (hc : s.callers[i]? = some c)
    (hphase : c.phase = .returned outcome) : (c.joined = none ∧ c.ran = false) ∨
      ∃ flight, c.joined = some flight ∧ s.cells[flight]? = some (.settled outcome) := by
  have h := hs.phases i c hc
  rwa [Caller.Ok, hphase] at h

theorem Sound.agrees {o o' : Except Error V} (hs : s.Sound) (hc : s.callers[i]? = some c)
    (hd : s.callers[j]? = some d) (hcj : c.joined = some flight) (hdj : d.joined = some flight)
    (hco : c.phase = .returned o) (hdo : d.phase = .returned o') : o = o' := by
  have hcell {i : Nat} {c : Caller V} {o : Except Error V} (hc : s.callers[i]? = some c)
      (hjoined : c.joined = some flight) (hphase : c.phase = .returned o) :
      s.cells[flight]? = some (.settled o) := by
    rcases hs.returned hc hphase with ⟨hnone, -⟩ | ⟨f, hf, hcell⟩
    · cases hnone.symm.trans hjoined
    · cases hf.symm.trans hjoined
      exact hcell
  cases (hcell hc hcj hco).symm.trans (hcell hd hdj hdo)
  rfl

/-- Of the requests that joined a flight, the starter alone had its builder called. -/
theorem Starts.ran_iff (hs : s.Sound) (hempty : s.callers = []) (hactions : ∀ i, .unwind i ∉ actions)
    (h : Starts s actions n i flight t c) (hd : (s.run actions).callers[j]? = some d)
    (hjoined : d.joined = some flight) : d.ran = true ↔ j = i ∧ c.raised = false := by
  constructor
  · intro hran
    obtain ⟨f, hf, m, u, x, hstarts, hraised⟩ := (launch_origin hs hempty actions j d hd).1 hran
    cases hf.symm.trans hjoined
    obtain rfl := h.unique hs hactions hstarts
    obtain ⟨rfl, rfl⟩ := h.eq hstarts
    exact ⟨rfl, hraised⟩
  · rintro ⟨rfl, hraised⟩
    obtain ⟨d', hd', -, hran⟩ := h.joined hs
    cases hd.symm.trans hd'
    exact hran hraised

theorem Starts.outcome_eq {result : Except Error V} (hs : s.Sound)
    (h : Starts s actions n i flight t c)
    (hcell : (s.run actions).cells[flight]? = some (.settled outcome))
    (hfinishes : Finishes s actions m i result u d) :
    outcome = if d.raised then .error .cancelled else result := by
  obtain ⟨x, hx, hjoined, -⟩ := h.joined hs
  obtain ⟨f, x', hx', hjoined', hsettled⟩ := hfinishes.settled hs
  cases hx.symm.trans hx'
  cases hjoined.symm.trans hjoined'
  cases hcell.symm.trans hsettled
  rfl

/-- **Requests agree in every run in which no builder unwinds.** -/
theorem agreement (capacity : Option Nat) (actions : List (Action V))
    (hactions : ∀ i, .unwind i ∉ actions) : Agreement (empty capacity) actions where
  returns i c hc :=
    ((calm_empty capacity).run (sound_empty capacity) hactions).returns
      ((sound_empty capacity).run actions) hc
  answers i c outcome hc hphase := by
    rcases ((sound_empty capacity).run actions).returned hc hphase with ⟨hjoined, hran⟩ | hflight
    · exact .inl ⟨hjoined, hran,
        answer_origin (sound_empty capacity) rfl actions i c outcome hc hjoined hphase⟩
    · exact .inr hflight
  agrees i j c d flight o o' := ((sound_empty capacity).run actions).agrees
  started flight outcome hcell := by
    have hs : (empty capacity : State V).Sound := sound_empty capacity
    obtain ⟨n, i, t, c, hstarts, hreturns⟩ := outcome_origin hs rfl rfl actions flight outcome hcell
    obtain ⟨d, hd, hjoined, -⟩ := hstarts.joined hs
    refine ⟨n, i, t, c, hstarts, fun m j u d h => hstarts.unique hs hactions h, ⟨d, hd, hjoined⟩,
      fun j d hd hjoined => hstarts.ran_iff hs rfl hactions hd hjoined, fun hraised => ?_, hreturns,
      fun m result u d h => hstarts.outcome_eq hs hcell h⟩
    cases hcell.symm.trans (hstarts.cancelled hs hraised)
    rfl
  resident := by
    refine Resident.run (sound_empty capacity) ?_ actions
    rintro k v ⟨⟩
  afresh p i t t' c flight outcome h hc hphase := by
    have hs : (empty capacity : State V).Sound := sound_empty capacity
    have hcalm : t.Calm := h.before ▸ (calm_empty capacity).run hs
      fun i hi => hactions i (List.mem_of_mem_take hi)
    obtain ⟨hnone, hready⟩ := hcalm.lookup_publish h.step hc hphase
    refine ⟨hnone, hready, fun n j u u' d next hlt h' hd hkey hwaiting => ?_⟩
    obtain ⟨rest, -, rfl⟩ := h.reaches h' hlt
    have hlookup := h'.step.lookup_joined hd hwaiting
    refine ((h.sound hs).step h.step).lookup_run hnone (rest ++ [.lookup j]) ?_
    rw [run_concat, h'.after, ← hkey]
    exact hlookup

/-- Two requests share a flight whose starter is cancelled while its builder runs, a third starts anew,
and a fourth finds the value. -/
def shared (k : Key) : List (Action Nat) :=
  [.arrive k false, .arrive k false, .lookup 0, .lookup 1, .start 0, .raise 0, .finish 0 (.ok 5),
    .publish 0, .observe 1, .arrive k false, .lookup 2, .start 2, .finish 2 (.ok 6), .publish 2,
    .arrive k false, .lookup 3]

theorem agreement_shared :
    (∀ i, .unwind i ∉ shared (.fill 7)) ∧
      Agreement (empty (some 1)) (shared (.fill 7)) ∧
      ((empty (some 1)).run (shared (.fill 7))).callers =
        [⟨.fill 7, true, .returned (.error .cancelled), some 0, true⟩,
          ⟨.fill 7, false, .returned (.error .cancelled), some 0, false⟩,
          ⟨.fill 7, false, .returned (.ok 6), some 1, true⟩,
          ⟨.fill 7, false, .returned (.ok 6), none, false⟩] := by
  have hcalm : ∀ i, .unwind i ∉ shared (.fill 7) := by simp [shared]
  exact ⟨hcalm, agreement (some 1) _ hcalm, rfl⟩

end State

end OpFusion.Flight
