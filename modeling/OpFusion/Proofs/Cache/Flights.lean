/-
  What holds of overlapping requests in every state.

  A request is in a phase that the cell of its flight allows (`Caller.Ok`), a flight is for one key, and
  at most one request has a flight in hand: its builder runs, or it has the outcome to publish. All of
  this holds after every run, builders that unwind included (`Sound.run`).
-/
import OpFusion.Proofs.Cache.Step

namespace OpFusion.Flight

variable {V : Type}

/-! ## One request -/

namespace Caller

variable {c : Caller V} {cells : List (Cell V)} {flight : Nat}

/-- The phase of a request fits the flight that it joined. -/
def Ok (cells : List (Cell V)) (c : Caller V) : Prop :=
  match c.phase with
  | .entered => c.joined = none ∧ c.ran = false
  | .waiting f => c.joined = some f ∧ f < cells.length
  | .building f => c.joined = some f ∧ cells[f]? = some .running
  | .publishing f outcome => c.joined = some f ∧ cells[f]? = some (.settled outcome)
  | .unwinding f => c.joined = some f ∧ f < cells.length
  | .dropping f => c.joined = some f ∧ f < cells.length
  | .returned outcome =>
    (c.joined = none ∧ c.ran = false) ∨
      ∃ f, c.joined = some f ∧ cells[f]? = some (.settled outcome)
  | .unwound => ∃ f, c.joined = some f ∧ f < cells.length

/-- A request has a flight in hand: its builder runs for it, or it has its outcome to publish. -/
def Holds (c : Caller V) (flight : Nat) : Prop :=
  c.phase = .building flight ∨ ∃ outcome, c.phase = .publishing flight outcome

theorem Ok.lt (h : c.Ok cells) (hjoined : c.joined = some flight) : flight < cells.length := by
  cases hphase : c.phase <;> simp only [Ok, hphase] at h <;> grind

/-- A cell that is added disturbs nobody. -/
theorem Ok.concat (h : c.Ok cells) (cell : Cell V) : c.Ok (cells ++ [cell]) := by
  cases hphase : c.phase <;> simp only [Ok, hphase] at h ⊢ <;> grind

/-- A cell without an outcome can change but for the request whose builder runs for it. -/
theorem Ok.set (h : c.Ok cells) (hcell : ∀ outcome, cells[flight]? ≠ some (.settled outcome))
    (hother : c.phase ≠ .building flight) (cell : Cell V) : c.Ok (cells.set flight cell) := by
  cases hphase : c.phase <;> simp only [Ok, hphase] at h ⊢ <;> grind

end Caller

namespace State

variable {s s' : State V} {a : Action V} {i j : Nat} {c c' d : Caller V} {k : Key} {flight : Nat}

theorem forall_setCaller {P : Nat → Caller V → Prop} (hc : s.callers[i]? = some c) (hi : P i c')
    (h : ∀ j d, i ≠ j → s.callers[j]? = some d → P j d) :
    ∀ j d, (s.setCaller i c').callers[j]? = some d → P j d := by
  intro j d hd
  rw [callers_setCaller hc] at hd
  split at hd
  · next hij =>
    cases hd
    exact hij ▸ hi
  · next hij => exact h j d hij hd

theorem forall_arrive {P : Nat → Caller V → Prop} {raised : Bool}
    (hnew : P s.callers.length
      ⟨k, raised, if raised then .returned (.error .cancelled) else .entered, none, false⟩)
    (h : ∀ j d, s.callers[j]? = some d → P j d) :
    ∀ j d, (s.arrive k raised).callers[j]? = some d → P j d := by
  intro j d hd
  rw [arrive, callers_concat] at hd
  split at hd
  · next hj =>
    cases hd
    exact hj ▸ hnew
  · exact h j d hd

/-! ## All requests -/

/-- A request for a key joined the flight. -/
def Serves (s : State V) (flight : Nat) (k : Key) : Prop :=
  ∃ (i : Nat) (c : Caller V), s.callers[i]? = some c ∧ c.joined = some flight ∧ c.key = k

/-- At most one request has a flight in hand. -/
def Exclusive (s : State V) : Prop :=
  ∀ (i j : Nat) (c d : Caller V) (flight : Nat), s.callers[i]? = some c → s.callers[j]? = some d →
    c.Holds flight → d.Holds flight → i = j

/-- What holds in every state. -/
structure Sound (s : State V) : Prop where
  phases : ∀ (i : Nat) (c : Caller V), s.callers[i]? = some c → c.Ok s.cells
  next : s.cache.nextFlight = s.cells.length
  table : ∀ k flight, s.cache.inflight.lookup k = some flight → s.Serves flight k
  keys : ∀ flight k k', s.Serves flight k → s.Serves flight k' → k = k'
  exclusive : s.Exclusive

theorem Sound.lt (hs : s.Sound) (h : s.Serves flight k) : flight < s.cells.length := by
  obtain ⟨i, c, hc, hjoined, -⟩ := h
  exact (hs.phases i c hc).lt hjoined

theorem Sound.cells_join (hs : s.Sound) (i : Nat) (c : Caller V) (cache : Cache V)
    (h : s.cache.inflight.lookup k = some flight) : (s.join i c flight cache).cells = s.cells :=
  if_pos (hs.lt (hs.table k flight h))

theorem Sound.cells_create (hs : s.Sound) (i : Nat) (c : Caller V) (cache : Cache V) :
    (s.join i c s.cache.nextFlight cache).cells = s.cells ++ [.vacant] :=
  if_neg (by rw [hs.next]; exact Nat.lt_irrefl _)

theorem Sound.entered (hs : s.Sound) (hc : s.callers[i]? = some c) (hphase : c.phase = .entered) :
    c.joined = none ∧ c.ran = false := by
  have h := hs.phases i c hc
  rwa [Caller.Ok, hphase] at h

theorem Sound.waiting (hs : s.Sound) (hc : s.callers[i]? = some c)
    (hphase : c.phase = .waiting flight) : c.joined = some flight ∧ flight < s.cells.length := by
  have h := hs.phases i c hc
  rwa [Caller.Ok, hphase] at h

theorem Sound.building (hs : s.Sound) (hc : s.callers[i]? = some c)
    (hphase : c.phase = .building flight) :
    c.joined = some flight ∧ s.cells[flight]? = some .running := by
  have h := hs.phases i c hc
  rwa [Caller.Ok, hphase] at h

theorem Sound.publishing {outcome : Except Error V} (hs : s.Sound) (hc : s.callers[i]? = some c)
    (hphase : c.phase = .publishing flight outcome) :
    c.joined = some flight ∧ s.cells[flight]? = some (.settled outcome) := by
  have h := hs.phases i c hc
  rwa [Caller.Ok, hphase] at h

theorem Sound.unwinding (hs : s.Sound) (hc : s.callers[i]? = some c)
    (hphase : c.phase = .unwinding flight) : c.joined = some flight ∧ flight < s.cells.length := by
  have h := hs.phases i c hc
  rwa [Caller.Ok, hphase] at h

theorem Sound.dropping (hs : s.Sound) (hc : s.callers[i]? = some c)
    (hphase : c.phase = .dropping flight) : c.joined = some flight ∧ flight < s.cells.length := by
  have h := hs.phases i c hc
  rwa [Caller.Ok, hphase] at h

/-- A flight that a request has in hand is not vacant. -/
theorem Sound.not_holds (hs : s.Sound) (hcell : s.cells[flight]? = some .vacant)
    (hc : s.callers[i]? = some c) : ¬ c.Holds flight := by
  rintro (hphase | ⟨outcome, hphase⟩)
  · exact absurd (hcell.symm.trans (hs.building hc hphase).2) nofun
  · exact absurd (hcell.symm.trans (hs.publishing hc hphase).2) nofun

/-- Only one builder runs for a flight. -/
theorem Sound.not_building (hs : s.Sound) (hc : s.callers[i]? = some c)
    (hphase : c.phase = .building flight) (hij : i ≠ j) (hd : s.callers[j]? = some d) :
    d.phase ≠ .building flight := fun h =>
  hij (hs.exclusive i j c d flight hc hd (.inl hphase) (.inl h))

/-! ## One flight -/

/-- What a step does to the cell of a flight. -/
inductive Turn (s : State V) (flight : Nat) : Action V → Cell V → Cell V → Prop
  | rest {a : Action V} {x : Cell V} :
      (∀ (i : Nat) (c : Caller V), a.turns? = some i → s.callers[i]? = some c →
        c.phase ≠ .waiting flight ∧ c.phase ≠ .building flight) → Turn s flight a x x
  | refuse {i : Nat} {c : Caller V} : s.callers[i]? = some c → c.phase = .waiting flight →
      c.raised = true → Turn s flight (.start i) .vacant (.settled (.error .cancelled))
  | start {i : Nat} {c : Caller V} : s.callers[i]? = some c → c.phase = .waiting flight →
      c.raised = false → Turn s flight (.start i) .vacant .running
  | finish {i : Nat} {c : Caller V} {result : Except Error V} : s.callers[i]? = some c →
      c.phase = .building flight → Turn s flight (.finish i result) .running
        (.settled (if c.raised then .error .cancelled else result))
  | unwind {i : Nat} {c : Caller V} : s.callers[i]? = some c → c.phase = .building flight →
      Turn s flight (.unwind i) .running .vacant

/-- A step at a cell turns it as said, and all others rest. -/
theorem turn_set {x y z : Cell V} {f : Nat} (hc : s.callers[i]? = some c) (ha : a.turns? = some i)
    (hf : s.cells[f]? = some y) (hphase : c.phase = .waiting f ∨ c.phase = .building f)
    (hturn : Turn s f a y z) (hx : s.cells[flight]? = some x) :
    ∃ y, (s.cells.set f z)[flight]? = some y ∧ Turn s flight a x y := by
  by_cases hflight : f = flight
  · subst hflight
    cases hf.symm.trans hx
    exact ⟨z, List.getElem?_set_self (List.getElem?_eq_some_iff.1 hx).1, hturn⟩
  · refine ⟨x, (List.getElem?_set_ne hflight).trans hx, .rest fun i' c' ha' hc' => ?_⟩
    cases ha.symm.trans ha'
    cases hc.symm.trans hc'
    rcases hphase with hphase | hphase <;> rw [hphase] <;> simp [hflight]

/-- **A step turns each cell by one of the turns.** -/
theorem Sound.turn (hs : s.Sound) (h : Step s a s') {x : Cell V} (hx : s.cells[flight]? = some x) :
    ∃ y, s'.cells[flight]? = some y ∧ Turn s flight a x y := by
  have hrest (ha : a.turns? = none) : Turn s flight a x x := .rest fun _ _ h _ => by
    cases ha.symm.trans h
  cases h with
  | @join i c _ _ _ _ hflight => exact ⟨x, (hs.cells_join i c _ hflight).symm ▸ hx, hrest rfl⟩
  | @create i c _ _ _ _ =>
    refine ⟨x, ?_, hrest rfl⟩
    rw [hs.cells_create i c, List.getElem?_append_left (List.getElem?_eq_some_iff.1 hx).1]
    exact hx
  | refuse hc hphase hcell hraised =>
    exact turn_set hc rfl hcell (.inl hphase) (.refuse hc hphase hraised) hx
  | start hc hphase hcell hraised =>
    exact turn_set hc rfl hcell (.inl hphase) (.start hc hphase hraised) hx
  | finish _ hc hphase =>
    exact turn_set hc rfl (hs.building hc hphase).2 (.inr hphase) (.finish hc hphase) hx
  | unwind hc hphase =>
    exact turn_set hc rfl (hs.building hc hphase).2 (.inr hphase) (.unwind hc hphase) hx
  | _ => exact ⟨x, hx, hrest rfl⟩

theorem Step.length_cells (h : Step s a s') : s.cells.length ≤ s'.cells.length := by
  have hjoin (i : Nat) (c : Caller V) (f : Nat) (cache : Cache V) :
      s.cells.length ≤ (s.join i c f cache).cells.length := by
    show _ ≤ (if f < s.cells.length then s.cells else s.cells ++ [.vacant]).length
    split
    · exact Nat.le_refl _
    · rw [List.length_append]
      exact Nat.le_add_right _ _
  cases h with
  | join _ _ _ _ => exact hjoin ..
  | create _ _ _ _ => exact hjoin ..
  | refuse _ _ _ _ => exact Nat.le_of_eq (List.length_set ..).symm
  | start _ _ _ _ => exact Nat.le_of_eq (List.length_set ..).symm
  | finish _ _ _ => exact Nat.le_of_eq (List.length_set ..).symm
  | unwind _ _ => exact Nat.le_of_eq (List.length_set ..).symm
  | _ => exact Nat.le_refl _

/-- A cell after a step was there before, or is a new one. -/
theorem Sound.turn_origin (hs : s.Sound) (h : Step s a s') {y : Cell V}
    (hy : s'.cells[flight]? = some y) :
    (∃ x, s.cells[flight]? = some x ∧ Turn s flight a x y) ∨
      (flight = s.cells.length ∧ y = .vacant) := by
  cases hx : s.cells[flight]? with
  | some x =>
    obtain ⟨y', hy', hturn⟩ := hs.turn h hx
    cases hy.symm.trans hy'
    exact .inl ⟨x, rfl, hturn⟩
  | none =>
    have hge := List.getElem?_eq_none_iff.1 hx
    have hset {f : Nat} {z : Cell V} : (s.cells.set f z)[flight]? = none := by
      rw [List.getElem?_eq_none_iff, List.length_set]
      exact hge
    cases h with
    | @join i c _ _ _ _ hflight =>
      rw [hs.cells_join i c _ hflight] at hy
      cases hy.symm.trans hx
    | @create i c _ _ _ _ =>
      rw [hs.cells_create i c, List.getElem?_append_right hge, List.getElem?_singleton] at hy
      split at hy
      · next hzero => exact .inr ⟨by omega, (Option.some.inj hy).symm⟩
      · cases hy
    | refuse _ _ _ _ => exact absurd (hy.symm.trans hset) nofun
    | start _ _ _ _ => exact absurd (hy.symm.trans hset) nofun
    | finish _ _ _ => exact absurd (hy.symm.trans hset) nofun
    | unwind _ _ => exact absurd (hy.symm.trans hset) nofun
    | _ => cases hy.symm.trans hx

/-- A vacant cell was vacant before, is new, or its builder unwinds. -/
theorem Sound.of_vacant_step (hs : s.Sound) (h : Step s a s')
    (hcell : s'.cells[flight]? = some .vacant) :
    s.cells[flight]? = some .vacant ∨ flight = s.cells.length ∨
      ∃ (i : Nat) (c : Caller V), a = .unwind i ∧ s.callers[i]? = some c ∧ c.phase = .building flight := by
  rcases hs.turn_origin h hcell with ⟨x, hx, hturn⟩ | ⟨hnew, -⟩
  · cases hturn with
    | rest _ => exact .inl hx
    | unwind hc hphase => exact .inr (.inr ⟨_, _, rfl, hc, hphase⟩)
  · exact .inr (.inl hnew)

/-- An outcome stays. -/
theorem Sound.settled_step {outcome : Except Error V} (hs : s.Sound) (h : Step s a s')
    (hcell : s.cells[flight]? = some (.settled outcome)) :
    s'.cells[flight]? = some (.settled outcome) := by
  obtain ⟨y, hy, hturn⟩ := hs.turn h hcell
  cases hturn
  exact hy

/-! ## One step -/

/-- The cell of a vacant flight can change for everybody. -/
theorem Sound.ok_of_vacant (hs : s.Sound) (hcell : s.cells[flight]? = some .vacant) (x : Cell V)
    (hd : s.callers[j]? = some d) : d.Ok (s.cells.set flight x) :=
  (hs.phases j d hd).set (fun _ h => absurd (hcell.symm.trans h) nofun)
    (fun h => hs.not_holds hcell hd (.inl h)) x

/-- The cell for which a builder runs can change for all but its request. -/
theorem Sound.ok_of_building (hs : s.Sound) (hc : s.callers[i]? = some c)
    (hphase : c.phase = .building flight) (x : Cell V) (hij : i ≠ j) (hd : s.callers[j]? = some d) :
    d.Ok (s.cells.set flight x) :=
  (hs.phases j d hd).set (fun _ h => absurd ((hs.building hc hphase).2.symm.trans h) nofun)
    (hs.not_building hc hphase hij hd) x

theorem Sound.phases_step (hs : s.Sound) (h : Step s a s') :
    ∀ (j : Nat) (d : Caller V), s'.callers[j]? = some d → d.Ok s'.cells := by
  have hsame : ∀ (i j : Nat) (d : Caller V), i ≠ j → s.callers[j]? = some d → d.Ok s.cells :=
    fun _ j d _ hd => hs.phases j d hd
  cases h with
  | arrive key raised =>
    refine forall_arrive ?_ hs.phases
    cases raised with
    | true => exact Or.inl ⟨rfl, rfl⟩
    | false => exact ⟨rfl, rfl⟩
  | invalidate key => exact hs.phases
  | clear => exact hs.phases
  | hit hc hphase _ =>
    obtain ⟨hjoined, hran⟩ := hs.entered hc hphase
    exact forall_setCaller hc (.inl ⟨hjoined, hran⟩) (hsame _)
  | @join i c flight hc hphase _ hflight =>
    rw [hs.cells_join i c _ hflight]
    exact forall_setCaller hc ⟨rfl, hs.lt (hs.table _ _ hflight)⟩ (hsame _)
  | @create i c hc hphase _ _ =>
    rw [hs.cells_create i c]
    refine forall_setCaller hc ⟨rfl, ?_⟩ fun j d _ hd => (hs.phases j d hd).concat _
    rw [List.length_append, hs.next]
    exact Nat.lt_succ_self _
  | @refuse i c flight hc hphase hcell _ =>
    obtain ⟨hjoined, hlt⟩ := hs.waiting hc hphase
    exact forall_setCaller hc ⟨hjoined, List.getElem?_set_self hlt⟩
      fun _ _ _ hd => hs.ok_of_vacant hcell _ hd
  | @start i c flight hc hphase hcell _ =>
    obtain ⟨hjoined, hlt⟩ := hs.waiting hc hphase
    exact forall_setCaller hc ⟨hjoined, List.getElem?_set_self hlt⟩
      fun _ _ _ hd => hs.ok_of_vacant hcell _ hd
  | @finish i c flight result hc hphase =>
    obtain ⟨hjoined, hcell⟩ := hs.building hc hphase
    have hlt := (List.getElem?_eq_some_iff.1 hcell).1
    exact forall_setCaller hc ⟨hjoined, List.getElem?_set_self hlt⟩
      fun _ _ hij hd => hs.ok_of_building hc hphase _ hij hd
  | @unwind i c flight hc hphase =>
    obtain ⟨hjoined, hcell⟩ := hs.building hc hphase
    have hlt := (List.getElem?_eq_some_iff.1 hcell).1
    exact forall_setCaller hc ⟨hjoined, (List.length_set ..).symm ▸ hlt⟩
      fun _ _ hij hd => hs.ok_of_building hc hphase _ hij hd
  | leave hc hphase _ =>
    obtain ⟨hjoined, hlt⟩ := hs.unwinding hc hphase
    exact forall_setCaller hc ⟨_, hjoined, hlt⟩ (hsame _)
  | inspect hc hphase _ =>
    obtain ⟨hjoined, hlt⟩ := hs.unwinding hc hphase
    exact forall_setCaller hc ⟨hjoined, hlt⟩ (hsame _)
  | drop hc hphase =>
    obtain ⟨hjoined, hlt⟩ := hs.dropping hc hphase
    exact forall_setCaller hc ⟨_, hjoined, hlt⟩ (hsame _)
  | observe hc hphase hcell =>
    obtain ⟨hjoined, -⟩ := hs.waiting hc hphase
    exact forall_setCaller hc (.inr ⟨_, hjoined, hcell⟩) (hsame _)
  | publish hc hphase =>
    obtain ⟨hjoined, hcell⟩ := hs.publishing hc hphase
    exact forall_setCaller hc (.inr ⟨_, hjoined, hcell⟩) (hsame _)
  | raise hc =>
    have hok := hs.phases _ _ hc
    exact forall_setCaller hc hok (hsame _)

/-- A request keeps its key, and its flight once it joined one. -/
theorem Sound.kept (hs : s.Sound) (hd : s.callers[j]? = some d) (h : Move s j a d d') :
    d'.key = d.key ∧ (∀ flight, d.joined = some flight → d'.joined = some flight) ∧
      (d.ran = true → d'.ran = true) := by
  have hentered (hphase : d.phase = .entered) (flight : Nat) : d.joined ≠ some flight := fun h =>
    absurd ((hs.entered hd hphase).1.symm.trans h) nofun
  cases h with
  | join hphase _ _ => exact ⟨rfl, fun _ h => absurd h (hentered hphase _), id⟩
  | create hphase _ _ => exact ⟨rfl, fun _ h => absurd h (hentered hphase _), id⟩
  | start _ _ _ => exact ⟨rfl, fun _ h => h, fun _ => rfl⟩
  | _ => exact ⟨rfl, fun _ h => h, id⟩

theorem Sound.serves_step (hs : s.Sound) (h : Step s a s') (hf : s.Serves flight k) :
    s'.Serves flight k := by
  obtain ⟨i, c, hc, hjoined, hkey⟩ := hf
  obtain ⟨c', hc', hmove⟩ := h.move hc
  obtain ⟨hkey', hjoined', -⟩ := hs.kept hc hmove
  exact ⟨i, c', hc', hjoined' flight hjoined, hkey'.trans hkey⟩

/-- A flight that is for a key after a step was for it before, or is the new flight of a request for
it. -/
theorem Sound.of_serves_step (hs : s.Sound) (h : Step s a s') (hf : s'.Serves flight k) :
    s.Serves flight k ∨ (flight = s.cells.length ∧
      ∃ (i : Nat) (c : Caller V), a = .lookup i ∧ s.callers[i]? = some c ∧ c.key = k) := by
  obtain ⟨j, d', hd', hjoined, hkey⟩ := hf
  rcases h.origin hd' with ⟨d, hd, hmove⟩ | ⟨key, raised, -, -, rfl⟩
  · cases hmove with
    | join _ _ hflight =>
      cases hjoined
      exact .inl (hkey ▸ hs.table _ _ hflight)
    | create _ _ _ =>
      cases hjoined
      exact .inr ⟨hs.next, j, _, rfl, hd, hkey⟩
    | _ => exact .inl ⟨j, _, hd, hjoined, hkey⟩
  · cases hjoined

theorem Sound.keys_step (hs : s.Sound) (h : Step s a s') {k' : Key} (hf : s'.Serves flight k)
    (hf' : s'.Serves flight k') : k = k' := by
  rcases hs.of_serves_step h hf with hf | ⟨rfl, i, c, ha, hc, hkey⟩
  · rcases hs.of_serves_step h hf' with hf' | ⟨rfl, -⟩
    · exact hs.keys _ _ _ hf hf'
    · exact absurd (hs.lt hf) (Nat.lt_irrefl _)
  · rcases hs.of_serves_step h hf' with hf' | ⟨-, j, d, hb, hd, hkey'⟩
    · exact absurd (hs.lt hf') (Nat.lt_irrefl _)
    · cases ha.symm.trans hb
      cases hc.symm.trans hd
      exact hkey.symm.trans hkey'

/-- The flight of a key was its flight before, or is the new flight of a request for it. -/
theorem Sound.of_lookup_step (hs : s.Sound) (h : Step s a s')
    (hf : s'.cache.inflight.lookup k = some flight) :
    s.cache.inflight.lookup k = some flight ∨ (flight = s.cells.length ∧ s'.Serves flight k) := by
  have hdrop {c : Cache V} {k' : Key} {f : Nat} (hc : c.inflight = s.cache.inflight)
      (h : (c.dropFlight k' f).inflight.lookup k = some flight) :
      s.cache.inflight.lookup k = some flight := by
    rw [Cache.lookup_dropFlight] at h
    split at h
    · cases h
    · rwa [hc] at h
  cases h with
  | @create i c hc _ _ _ =>
    replace hf := (Cache.lookup_create s.cache.miss c.key k).symm.trans hf
    split at hf
    · next hk =>
      cases hf
      exact .inr ⟨hs.next, i, { c with phase := .waiting _, joined := some _ }, callers_self hc _,
        rfl, hk.symm⟩
    · exact .inl hf
  | drop _ _ => exact .inl (hdrop rfl hf)
  | @publish i c f outcome _ _ =>
    exact .inl (hdrop rfl (Cache.inflight_publish s.cache c.key f outcome ▸ hf))
  | _ => exact .inl hf

theorem Sound.table_step (hs : s.Sound) (h : Step s a s')
    (hf : s'.cache.inflight.lookup k = some flight) : s'.Serves flight k := by
  rcases hs.of_lookup_step h hf with hold | ⟨-, hserves⟩
  · exact hs.serves_step h (hs.table k flight hold)
  · exact hserves

/-- The flight of a key stays, unless it is dropped or published. -/
theorem Step.lookup_inflight (h : Step s a s') (hf : s.cache.inflight.lookup k = some flight) :
    s'.cache.inflight.lookup k = some flight ∨ ∃ (i : Nat) (c : Caller V), s.callers[i]? = some c ∧
      c.key = k ∧ ((a = .drop i ∧ c.phase = .dropping flight) ∨
        (a = .publish i ∧ ∃ outcome, c.phase = .publishing flight outcome)) := by
  cases h with
  | @create i c _ _ _ hnone =>
    left
    refine (Cache.lookup_create s.cache.miss c.key k).trans ?_
    rw [if_neg]
    · exact hf
    · rintro rfl
      exact absurd (hf.symm.trans hnone) nofun
  | @drop i c f hc hphase =>
    by_cases hsame : k = c.key ∧ s.cache.inflight.lookup c.key = some f
    · obtain ⟨rfl, hlookup⟩ := hsame
      cases hf.symm.trans hlookup
      exact .inr ⟨i, c, hc, rfl, .inl ⟨rfl, hphase⟩⟩
    · exact .inl ((Cache.lookup_dropFlight s.cache c.key k f).trans ((if_neg hsame).trans hf))
  | @publish i c f outcome hc hphase =>
    have hpublish := Cache.inflight_publish s.cache c.key f outcome
    by_cases hsame : k = c.key ∧ s.cache.inflight.lookup c.key = some f
    · obtain ⟨rfl, hlookup⟩ := hsame
      cases hf.symm.trans hlookup
      exact .inr ⟨i, c, hc, rfl, .inr ⟨rfl, outcome, hphase⟩⟩
    · left
      show (s.cache.publish c.key f outcome).inflight.lookup k = some flight
      rw [hpublish, Cache.lookup_dropFlight, if_neg hsame]
      exact hf
  | _ => exact .inl hf

/-- A request that joins a flight joins the one of its key. -/
theorem Step.lookup_joined (h : Step s (.lookup j) s') (hd' : s'.callers[j]? = some d')
    (hphase : d'.phase = .waiting flight) : s'.cache.inflight.lookup d'.key = some flight := by
  cases h with
  | hit hc _ _ =>
    cases hd'.symm.trans (callers_self hc _)
    cases hphase
  | join hc _ _ hflight =>
    cases hd'.symm.trans (callers_self hc _)
    cases hphase
    exact hflight
  | @create _ c hc _ _ _ =>
    cases hd'.symm.trans (callers_self hc _)
    cases hphase
    exact (Cache.lookup_create s.cache.miss c.key c.key).trans (if_pos rfl)

/-- Whoever has a flight in hand after a step had it before, or starts with the step. -/
theorem Move.holds (h : Move s j a d d') (hf : d'.Holds flight) :
    d.Holds flight ∨ (a = .start j ∧ s.cells[flight]? = some .vacant) := by
  have hnot {p : Phase V} (hp : d'.phase = p) (h : p ≠ .building flight)
      (h' : ∀ outcome, p ≠ .publishing flight outcome) : d.Holds flight ∨
        (a = .start j ∧ s.cells[flight]? = some .vacant) := by
    rcases hf with hf | ⟨outcome, hf⟩
    · exact absurd (hp.symm.trans hf) h
    · exact absurd (hp.symm.trans hf) (h' outcome)
  cases h with
  | rest _ => exact .inl hf
  | raise => exact .inl hf
  | refuse _ hcell _ =>
    rcases hf with hf | ⟨outcome, hf⟩
    · cases hf
    · cases hf
      exact .inr ⟨rfl, hcell⟩
  | start _ hcell _ =>
    rcases hf with hf | ⟨outcome, hf⟩
    · cases hf
      exact .inr ⟨rfl, hcell⟩
    · cases hf
  | finish hphase =>
    rcases hf with hf | ⟨outcome, hf⟩
    · cases hf
    · cases hf
      exact .inl (.inl hphase)
  | _ => exact hnot rfl nofun nofun

theorem Sound.exclusive_step (hs : s.Sound) (h : Step s a s') : s'.Exclusive := by
  intro i j c' d' flight hc' hd' hi hj
  have horigin {i : Nat} {c' : Caller V} (hc' : s'.callers[i]? = some c') (hi : c'.Holds flight) :
      ∃ c, s.callers[i]? = some c ∧
        (c.Holds flight ∨ (a = .start i ∧ s.cells[flight]? = some .vacant)) := by
    rcases h.origin hc' with ⟨c, hc, hmove⟩ | ⟨key, raised, -, -, rfl⟩
    · exact ⟨c, hc, hmove.holds hi⟩
    · rcases hi with hi | ⟨outcome, hi⟩ <;> cases raised <;> cases hi
  obtain ⟨c, hc, hci⟩ := horigin hc' hi
  obtain ⟨d, hd, hdj⟩ := horigin hd' hj
  rcases hci with hci | ⟨ha, hvacant⟩
  · rcases hdj with hdj | ⟨-, hvacant⟩
    · exact hs.exclusive i j c d flight hc hd hci hdj
    · exact absurd hci (hs.not_holds hvacant hc)
  · rcases hdj with hdj | ⟨hb, -⟩
    · exact absurd hdj (hs.not_holds hvacant hd)
    · cases ha.symm.trans hb
      rfl

theorem Sound.next_step (hs : s.Sound) (h : Step s a s') :
    s'.cache.nextFlight = s'.cells.length := by
  cases h with
  | @join i c flight _ _ _ hflight =>
    rw [hs.cells_join i c _ hflight]
    exact hs.next
  | @create i c _ _ _ _ =>
    rw [hs.cells_create i c, List.length_append, ← hs.next]
    rfl
  | refuse _ _ _ _ => exact hs.next.trans (List.length_set ..).symm
  | start _ _ _ _ => exact hs.next.trans (List.length_set ..).symm
  | finish _ _ _ => exact hs.next.trans (List.length_set ..).symm
  | unwind _ _ => exact hs.next.trans (List.length_set ..).symm
  | drop _ _ => exact (Cache.nextFlight_dropFlight ..).trans hs.next
  | publish _ _ => exact (Cache.nextFlight_publish ..).trans hs.next
  | _ => exact hs.next

theorem Sound.step (hs : s.Sound) (h : Step s a s') : s'.Sound where
  phases := hs.phases_step h
  next := hs.next_step h
  table _ _ := hs.table_step h
  keys _ _ _ := hs.keys_step h
  exclusive := hs.exclusive_step h

theorem sound_empty (capacity : Option Nat) : (empty capacity : State V).Sound where
  phases := by rintro i c ⟨⟩
  next := rfl
  table := by rintro k flight ⟨⟩
  keys := by rintro flight k k' ⟨i, c, ⟨⟩, -⟩
  exclusive := by rintro i j c d flight ⟨⟩

/-- **After every run, requests and flights fit.** -/
theorem Sound.run (hs : s.Sound) (actions : List (Action V)) : (s.run actions).Sound :=
  run_induction (A := fun _ => True) (fun _ _ => trivial) hs fun _ _ _ _ hs h => hs.step h

/-- What steps of a kind keep where requests and flights fit, runs of that kind keep. -/
theorem Sound.run_keeps {P : State V → Prop} {A : Action V → Prop} {actions : List (Action V)}
    (hs : s.Sound) (hactions : ∀ a ∈ actions, A a) (h : P s)
    (hstep : ∀ t a t', A a → t.Sound → P t → Step t a t' → P t') : P (s.run actions) := by
  refine (run_induction (P := fun t => t.Sound ∧ P t) hactions ⟨hs, h⟩ ?_).2
  rintro t a t' ha ⟨ht, hP⟩ h
  exact ⟨ht.step h, hstep t a t' ha ht hP h⟩

end State

end OpFusion.Flight
