/-
  What a state of overlapping requests says about the run that led to it.

  `Happens` is a step of a run that was possible, with the states before and after it. What a state has
  comes from such steps: the answer of a request that joined no flight (`answer_origin`), the builder
  that was called (`launch_origin`), the outcome of a flight (`start_origin`, `outcome_origin`) and a
  ready value (`Resident`).
-/
import OpFusion.Proofs.Cache.Flights

namespace OpFusion.Flight.State

variable {V : Type} {s s' t t' u u' : State V} {actions : List (Action V)} {a b : Action V}
  {i j m n : Nat} {c d d' : Caller V} {k : Key} {flight : Nat} {outcome : Except Error V}

/-! ## Steps of a run -/

/-- The step with a number is possible in a run: it leads from one state to another. -/
structure Happens (s : State V) (actions : List (Action V)) (n : Nat) (a : Action V)
    (t t' : State V) : Prop where
  action : actions[n]? = some a
  before : s.run (actions.take n) = t
  after : t.step? a = some t'

theorem Happens.step (h : Happens s actions n a t t') : Step t a t' := step_of_step? h.after

theorem Happens.sound (h : Happens s actions n a t t') (hs : s.Sound) : t.Sound :=
  h.before ▸ hs.run _

theorem Happens.run_take (h : Happens s actions n a t t') : s.run (actions.take (n + 1)) = t' := by
  rw [List.take_add_one, h.action, Option.toList_some, run_concat, h.before, h.after, Option.getD_some]

/-- The rest of a run goes on from the state after a step. -/
theorem Happens.run_drop (h : Happens s actions n a t t') :
    s.run actions = t'.run (actions.drop (n + 1)) := by
  rw [← h.run_take, ← run_append, List.take_append_drop]

/-- The state before a later step is reached from the state after an earlier one. -/
theorem Happens.reaches (h : Happens s actions n a t t') (h' : Happens s actions m b u u')
    (hlt : n < m) : ∃ rest, (∀ x ∈ rest, x ∈ actions) ∧ u = t'.run rest := by
  refine ⟨(actions.take m).drop (n + 1), fun x hx => List.mem_of_mem_take (List.mem_of_mem_drop hx), ?_⟩
  have htake : (actions.take m).take (n + 1) = actions.take (n + 1) := by
    rw [List.take_take, Nat.min_eq_left hlt]
  rw [← h.run_take, ← htake, ← run_append, List.take_append_drop, h'.before]

theorem Happens.concat (h : Happens s actions n a t t') (b : Action V) :
    Happens s (actions ++ [b]) n a t t' := by
  have hlt : n < actions.length := (List.getElem?_eq_some_iff.1 h.action).1
  refine ⟨?_, ?_, h.after⟩
  · rw [List.getElem?_append_left hlt, h.action]
  · rw [List.take_append_of_le_length (Nat.le_of_lt hlt), h.before]

theorem happens_last (h : (s.run actions).step? a = some t') :
    Happens s (actions ++ [a]) actions.length a (s.run actions) t' := by
  refine ⟨?_, ?_, h⟩
  · rw [List.getElem?_append_right (Nat.le_refl _), Nat.sub_self]
    rfl
  · rw [List.take_left]

/-- **What holds of the empty run and is carried on by every step holds of every run.** -/
theorem history_induction {P : List (Action V) → State V → Prop} (hnil : P [] s)
    (hskip : ∀ as a, P as (s.run as) → P (as ++ [a]) (s.run as))
    (hstep : ∀ as a t', P as (s.run as) → (s.run as).step? a = some t' → P (as ++ [a]) t')
    (actions : List (Action V)) : P actions (s.run actions) := by
  induction h : actions.length generalizing actions with
  | zero =>
    rw [List.length_eq_zero_iff.1 h]
    exact hnil
  | succ n ih =>
    obtain ⟨as, a, rfl⟩ : ∃ as a, actions = as ++ [a] :=
      ⟨_, _, (List.dropLast_concat_getLast (List.ne_nil_of_length_eq_add_one h)).symm⟩
    have has := ih as (by simpa using h)
    rw [run_concat]
    cases ht : (s.run as).step? a with
    | none => exact hskip as a has
    | some t' => exact hstep as a t' has ht

/-! ## What stays -/

theorem Sound.settled_run (hs : s.Sound) (hcell : s.cells[flight]? = some (.settled outcome))
    (actions : List (Action V)) : (s.run actions).cells[flight]? = some (.settled outcome) := by
  refine hs.run_keeps (P := fun t => t.cells[flight]? = some (.settled outcome))
    (A := fun _ => True) (fun _ _ => trivial) hcell ?_
  intro t a t' _ ht hcell h
  exact ht.settled_step h hcell

/-- Without unwinding, a cell that is not vacant never is again. -/
theorem Sound.taken_run (hs : s.Sound) (hlt : flight < s.cells.length)
    (hcell : s.cells[flight]? ≠ some .vacant) (hcalm : ∀ i, .unwind i ∉ actions) :
    (s.run actions).cells[flight]? ≠ some .vacant := by
  refine (hs.run_keeps (P := fun t => flight < t.cells.length ∧ t.cells[flight]? ≠ some .vacant)
    (A := fun a => ∀ i, a ≠ .unwind i) (fun a ha i h => hcalm i (h ▸ ha)) ⟨hlt, hcell⟩ ?_).2
  rintro t a t' hne ht ⟨hlt, hcell⟩ h
  refine ⟨Nat.lt_of_lt_of_le hlt h.length_cells, fun hvacant => ?_⟩
  rcases ht.of_vacant_step h hvacant with hold | hnew | ⟨i, -, ha, -⟩
  · exact hcell hold
  · exact absurd hlt (hnew ▸ Nat.lt_irrefl _)
  · exact hne i ha

theorem Sound.caller_run (hs : s.Sound) (hd : s.callers[j]? = some d) (actions : List (Action V)) :
    ∃ d', (s.run actions).callers[j]? = some d' ∧ d'.key = d.key ∧
      (∀ flight, d.joined = some flight → d'.joined = some flight) ∧
      (d.ran = true → d'.ran = true) := by
  refine hs.run_keeps (P := fun t => ∃ d', t.callers[j]? = some d' ∧ d'.key = d.key ∧
      (∀ flight, d.joined = some flight → d'.joined = some flight) ∧ (d.ran = true → d'.ran = true))
    (A := fun _ => True) (fun _ _ => trivial) ⟨d, hd, rfl, fun _ h => h, id⟩ ?_
  rintro t a t' - ht ⟨x, hx, hkey, hjoined, hran⟩ h
  obtain ⟨x', hx', hmove⟩ := h.move hx
  obtain ⟨hkey', hjoined', hran'⟩ := ht.kept hx hmove
  exact ⟨x', hx', hkey'.trans hkey, fun f hf => hjoined' f (hjoined f hf), fun hr => hran' (hran hr)⟩

/-! ## Where answers come from -/

/-- How a request for a key gets its answer without a flight: its token was raised when it arrived, or
it found a value when it looked its key up. -/
def AtOnce (s : State V) (actions : List (Action V)) (i : Nat) (k : Key) (outcome : Except Error V) :
    Prop :=
  (outcome = .error .cancelled ∧
    ∃ n t t', Happens s actions n (.arrive k true) t t' ∧ t.callers.length = i) ∨
  ∃ v n t t', outcome = .ok v ∧ Happens s actions n (.lookup i) t t' ∧ t.cache.ready.peek k = some v

theorem AtOnce.concat (h : AtOnce s actions i k outcome) (a : Action V) :
    AtOnce s (actions ++ [a]) i k outcome := by
  rcases h with ⟨rfl, n, t, t', h, hlen⟩ | ⟨v, n, t, t', rfl, h, hpeek⟩
  · exact .inl ⟨rfl, n, t, t', h.concat a, hlen⟩
  · exact .inr ⟨v, n, t, t', rfl, h.concat a, hpeek⟩

theorem answer_origin (hs : s.Sound) (hempty : s.callers = []) (actions : List (Action V)) :
    ∀ (i : Nat) (c : Caller V) (outcome : Except Error V), (s.run actions).callers[i]? = some c →
      c.joined = none → c.phase = .returned outcome → AtOnce s actions i c.key outcome := by
  refine history_induction (P := fun actions s' => ∀ (i : Nat) (c : Caller V)
    (outcome : Except Error V), s'.callers[i]? = some c → c.joined = none →
      c.phase = .returned outcome → AtOnce s actions i c.key outcome) ?_ ?_ ?_ actions
  · intro i c outcome hc
    rw [hempty] at hc
    cases hc
  · intro as a ih i c outcome hc hjoined hphase
    exact (ih i c outcome hc hjoined hphase).concat a
  · intro as a s' ih ht i c' outcome hc' hjoined hphase
    have hsound := hs.run as
    rcases (step_of_step? ht).origin hc' with ⟨c, hc, hmove⟩ | ⟨key, raised, rfl, rfl, rfl⟩
    · cases hmove with
      | rest _ => exact (ih i _ outcome hc hjoined hphase).concat a
      | raise => exact (ih i c outcome hc hjoined hphase).concat _
      | hit _ hpeek =>
        cases hphase
        exact .inr ⟨_, as.length, _, _, rfl, happens_last ht, hpeek⟩
      | observe hwaiting _ => cases (hsound.waiting hc hwaiting).1.symm.trans hjoined
      | publish hpublishing => cases (hsound.publishing hc hpublishing).1.symm.trans hjoined
      | _ => cases hphase
    · cases raised with
      | true =>
        cases hphase
        exact .inl ⟨rfl, as.length, _, _, happens_last ht, rfl⟩
      | false => cases hphase

/-! ## Where outcomes come from -/

/-- A request starts on a flight with a step of a run. -/
structure Starts (s : State V) (actions : List (Action V)) (n i flight : Nat) (t : State V)
    (c : Caller V) : Prop where
  happens : ∃ t', Happens s actions n (.start i) t t'
  caller : t.callers[i]? = some c
  phase : c.phase = .waiting flight

/-- The builder of a request returns with a step of a run. -/
structure Finishes (s : State V) (actions : List (Action V)) (n i : Nat) (result : Except Error V)
    (t : State V) (c : Caller V) : Prop where
  happens : ∃ t', Happens s actions n (.finish i result) t t'
  caller : t.callers[i]? = some c

theorem Starts.concat (h : Starts s actions n i flight t c) (a : Action V) :
    Starts s (actions ++ [a]) n i flight t c :=
  ⟨h.happens.imp fun _ h => h.concat a, h.caller, h.phase⟩

theorem Finishes.concat {result : Except Error V} (h : Finishes s actions n i result t c)
    (a : Action V) : Finishes s (actions ++ [a]) n i result t c :=
  ⟨h.happens.imp fun _ h => h.concat a, h.caller⟩

/-- The builder of a request was called for a flight. -/
def Launched (s : State V) (actions : List (Action V)) (i flight : Nat) : Prop :=
  ∃ n t c, Starts s actions n i flight t c ∧ c.raised = false

theorem Launched.concat (h : Launched s actions i flight) (a : Action V) :
    Launched s (actions ++ [a]) i flight := by
  obtain ⟨n, t, c, h, hraised⟩ := h
  exact ⟨n, t, c, h.concat a, hraised⟩

theorem launch_origin (hs : s.Sound) (hempty : s.callers = []) (actions : List (Action V)) :
    ∀ (i : Nat) (c : Caller V), (s.run actions).callers[i]? = some c →
      (c.ran = true → ∃ flight, c.joined = some flight ∧ Launched s actions i flight) ∧
      ∀ flight, c.phase = .building flight → Launched s actions i flight := by
  refine history_induction (P := fun actions s' => ∀ (i : Nat) (c : Caller V),
    s'.callers[i]? = some c →
      (c.ran = true → ∃ flight, c.joined = some flight ∧ Launched s actions i flight) ∧
      ∀ flight, c.phase = .building flight → Launched s actions i flight) ?_ ?_ ?_ actions
  · intro i c hc
    rw [hempty] at hc
    cases hc
  · intro as a ih i c hc
    obtain ⟨hran, hbuilding⟩ := ih i c hc
    refine ⟨fun h => ?_, fun flight h => (hbuilding flight h).concat a⟩
    obtain ⟨flight, hjoined, h⟩ := hran h
    exact ⟨flight, hjoined, h.concat a⟩
  · intro as a s' ih ht i c' hc'
    rcases (step_of_step? ht).origin hc' with ⟨c, hc, hmove⟩ | ⟨key, raised, -, -, rfl⟩
    · obtain ⟨hran, hbuilding⟩ := ih i c hc
      have hkept := (hs.run as).kept hc hmove
      have hran' (h : c.ran = true) :
          ∃ flight, c'.joined = some flight ∧ Launched s (as ++ [a]) i flight := by
        obtain ⟨flight, hjoined, h⟩ := hran h
        exact ⟨flight, hkept.2.1 flight hjoined, h.concat a⟩
      cases hmove with
      | rest _ => exact ⟨hran', fun flight h => (hbuilding flight h).concat a⟩
      | raise => exact ⟨hran', fun flight h => (hbuilding flight h).concat _⟩
      | @start c flight hphase hcell hraised =>
        have hlaunched : Launched s (as ++ [.start i]) i flight :=
          ⟨as.length, _, c, ⟨⟨_, happens_last ht⟩, hc, hphase⟩, hraised⟩
        refine ⟨fun _ => ⟨flight, ((hs.run as).waiting hc hphase).1, hlaunched⟩, fun f hf => ?_⟩
        cases hf
        exact hlaunched
      | _ => exact ⟨hran', nofun⟩
    · cases raised <;> exact ⟨nofun, nofun⟩

/-- A flight was started, and its builder returned unless it was not called. -/
def Flown (s : State V) (actions : List (Action V)) (flight : Nat) : Prop :=
  ∃ n i t c, Starts s actions n i flight t c ∧
    (c.raised = false → ∃ m result u d, Finishes s actions m i result u d)

theorem Flown.concat (h : Flown s actions flight) (a : Action V) : Flown s (actions ++ [a]) flight := by
  obtain ⟨n, i, t, c, hstarts, hreturns⟩ := h
  refine ⟨n, i, t, c, hstarts.concat a, fun hraised => ?_⟩
  obtain ⟨m, result, u, d, hfinishes⟩ := hreturns hraised
  exact ⟨m, result, u, d, hfinishes.concat a⟩

theorem outcome_origin (hs : s.Sound) (hempty : s.callers = []) (hcells : s.cells = [])
    (actions : List (Action V)) :
    ∀ (flight : Nat) (outcome : Except Error V),
      (s.run actions).cells[flight]? = some (.settled outcome) → Flown s actions flight := by
  refine history_induction (P := fun actions s' => ∀ (flight : Nat) (outcome : Except Error V),
    s'.cells[flight]? = some (.settled outcome) → Flown s actions flight) ?_ ?_ ?_ actions
  · intro flight outcome h
    rw [hcells] at h
    cases h
  · intro as a ih flight outcome h
    exact (ih flight outcome h).concat a
  · intro as a s' ih ht flight outcome h
    rcases (hs.run as).turn_origin (step_of_step? ht) h with ⟨x, hx, hturn⟩ | ⟨-, hvacant⟩
    · cases hturn with
      | rest _ => exact (ih flight outcome hx).concat a
      | @refuse i c hc hphase hraised =>
        refine ⟨as.length, i, _, c, ⟨⟨_, happens_last ht⟩, hc, hphase⟩, fun h => ?_⟩
        cases hraised.symm.trans h
      | @finish i c result hc hphase =>
        obtain ⟨n, t, d, hstarts, -⟩ := (launch_origin hs hempty as i c hc).2 flight hphase
        exact ⟨n, i, t, d, hstarts.concat _,
          fun _ => ⟨as.length, result, _, c, ⟨⟨_, happens_last ht⟩, hc⟩⟩⟩
    · cases hvacant

/-! ## Where ready values come from -/

/-- Every ready value is the outcome of a flight for its key. -/
def Resident (s : State V) : Prop :=
  ∀ (k : Key) (v : V), s.cache.ready.peek k = some v →
    ∃ flight, s.Serves flight k ∧ s.cells[flight]? = some (.settled (.ok v))

/-- A value that is ready after a step was ready before, or is published. -/
theorem Step.of_peek {v : V} (h : Step s a s') (hpeek : s'.cache.ready.peek k = some v) :
    s.cache.ready.peek k = some v ∨ ∃ (i : Nat) (c : Caller V) (flight : Nat),
      s.callers[i]? = some c ∧ c.key = k ∧ c.phase = .publishing flight (.ok v) := by
  cases h with
  | invalidate key =>
    replace hpeek := (Recency.peek_erase s.cache.ready key k).symm.trans hpeek
    split at hpeek
    · cases hpeek
    · exact .inl hpeek
  | clear => cases hpeek
  | hit _ _ huse => exact .inl ((Recency.peek_use huse).2 ▸ hpeek)
  | drop _ _ => exact .inl (Cache.ready_dropFlight s.cache .. ▸ hpeek)
  | @publish i c flight outcome hc hphase =>
    replace hpeek := Cache.ready_publish s.cache c.key flight outcome ▸ hpeek
    cases outcome with
    | error e => exact .inl hpeek
    | ok w =>
      rcases Recency.peek_put hpeek with ⟨hk, rfl⟩ | hold
      · exact .inr ⟨i, c, flight, hc, hk.symm, hphase⟩
      · exact .inl hold
  | _ => exact .inl hpeek

theorem Resident.step (hs : s.Sound) (hr : s.Resident) (h : Step s a s') : s'.Resident := by
  intro k v hpeek
  rcases h.of_peek hpeek with hold | ⟨i, c, flight, hc, hkey, hphase⟩
  · obtain ⟨flight, hserves, hcell⟩ := hr k v hold
    exact ⟨flight, hs.serves_step h hserves, hs.settled_step h hcell⟩
  · obtain ⟨hjoined, hcell⟩ := hs.publishing hc hphase
    exact ⟨flight, hs.serves_step h ⟨i, c, hc, hjoined, hkey⟩, hs.settled_step h hcell⟩

theorem Resident.run (hs : s.Sound) (hr : s.Resident) (actions : List (Action V)) :
    (s.run actions).Resident :=
  hs.run_keeps (A := fun _ => True) (fun _ _ => trivial) hr fun _ _ _ _ ht hr h => hr.step ht h

end OpFusion.Flight.State
