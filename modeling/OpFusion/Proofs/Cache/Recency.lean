/-
  Ready values are those that were used last.

  A course is what comes of requests that nothing overlaps, with reading in between: the state, and of each
  request its answer and whether its builder was called. The keys of ready values are the last distinct keys
  among the requests that gave a value, and each value is what the last builder of its key made (`Recent`).
  So of two courses of the same requests, none of whose builders fails, the one in the larger cache finds
  whatever the other finds (`Abreast`, `ready_eq_recent`).
-/
import OpFusion.Proofs.Cache.Sequential

namespace OpFusion.Flight

variable {V : Type}

/-! ## Courses -/

/-- A request: for a key, with a token that may be raised when it arrives, and a builder. -/
structure Call (V : Type) where
  key : Key
  raised : Bool := false
  verdict : Verdict V

/-- What is done with a cache. All but a request only looks at it. -/
inductive Op (V : Type) where
  | request (call : Call V)
  | peek (k : Key)
  | contains (k : Key)
  | length
  | stats

/-- What became of a request. -/
structure Record (V : Type) where
  call : Call V
  answer : Except Error V
  /-- Whether the builder was called. -/
  ran : Bool

/-- A request that nothing overlaps, from its arrival to its answer. -/
def State.serve (s : State V) (call : Call V) : Record V × State V :=
  let (i, asked) := s.ask call.key call.raised
  let served := match asked.asked i with
    | .building => asked.reply i call.verdict
    | _ => asked
  (⟨call, served.answer i, served.ran i⟩, served)

/-- A state, and the requests that led to it. -/
structure Course (V : Type) where
  state : State V
  log : List (Record V) := []

namespace Course

/-- The course after one more operation. -/
def next (c : Course V) : Op V → Course V
  | .request call =>
    let (record, state) := c.state.serve call
    ⟨state, c.log ++ [record]⟩
  | .peek _ | .contains _ | .length | .stats => c

/-- The course of operations on an empty cache. -/
def of (capacity : Option Nat) (ops : List (Op V)) : Course V :=
  ops.foldl next { state := .empty capacity }

end Course

/-- The keys of the requests that gave a value. -/
def givenKeys (log : List (Record V)) : List Key :=
  (log.filter (·.answer.isOk)).map (·.call.key)

/-- As many items as a capacity allows. -/
def upTo {α : Type} (capacity : Option Nat) (items : List α) : List α := capacity.elim items items.take

/-- The last distinct keys of the requests that gave a value, from the last one on. -/
def recent (capacity : Option Nat) (log : List (Record V)) : List Key :=
  upTo capacity (givenKeys log).dedup.reverse

/-- What the last builder for a key made. -/
def lastBuilt? (log : List (Record V)) (k : Key) : Option V :=
  (log.reverse.find? fun r => r.call.key = k && r.ran).bind fun r =>
    r.call.verdict.outcome.bind Except.toOption

/-- The answer of a request whose builder is called. -/
def Verdict.answer (v : Verdict V) : Except Error V :=
  match v.outcome with
  | some result => if v.raises then .error .cancelled else result
  | none => .error .crash

theorem Verdict.outcome_of_answer {v : Verdict V} {w : V} (h : v.answer = .ok w) :
    v.outcome.bind Except.toOption = some w := by
  unfold answer at h
  split at h
  · next result hresult =>
    split at h
    · cases h
    · rw [hresult, h]
      rfl
  · cases h

/-! ## One request -/

namespace State

variable {s s' : State V} {call : Call V} {k : Key}

/-- The state in which the builder of a new request has unwound and its flight is dropped. -/
def deserted (s : State V) (k : Key) (raised : Bool) : State V where
  cache := { s.cache with
    nextFlight := s.cache.nextFlight + 1
    stats := { s.cache.stats with
      misses := s.cache.stats.misses + 1
      builds := s.cache.stats.builds + 1 } }
  cells := s.cells ++ [.vacant]
  callers := s.callers ++ [⟨k, raised, .unwound, some s.cache.nextFlight, true⟩]

theorem reply_unwound (hs : s.Quiet) (k : Key) (raises : Bool) :
    (s.opened k).reply s.callers.length ⟨raises, none⟩ = s.deserted k raises := by
  cases raises <;>
    simp [reply, run, step?, opened, deserted, inspect, setCaller, setPhase, setCell, hs.next, hs.inflight,
      Cache.dropFlight, Table.erase]

/-- What becomes of a request whose builder is called. -/
structure Replied (s s' : State V) (k : Key) (v : Verdict V) : Prop where
  quiet : s'.Quiet
  ready : s'.cache.ready =
    match v.answer with
    | .ok w => s.cache.ready.put k w
    | .error _ => s.cache.ready
  hits : s'.cache.stats.hits = s.cache.stats.hits
  answer : s'.answer s.callers.length = v.answer
  ran : s'.ran s.callers.length = true

theorem Quiet.replied (hs : s.Quiet) (k : Key) (v : Verdict V) :
    Replied s ((s.opened k).reply s.callers.length v) k v := by
  obtain ⟨raises, outcome⟩ := v
  cases outcome with
  | none =>
    rw [reply_unwound hs]
    refine ⟨⟨hs.inflight, ?_⟩, rfl, rfl, ?_, ?_⟩
    · simp [deserted, hs.next]
    · simp [State.answer, asked, deserted, Phase.asked, Verdict.answer]
    · simp [State.ran, deserted]
  | some result =>
    rw [reply_opened hs]
    refine ⟨quiet_closed hs .., ready_closed .., ?_, answer_closed .., ?_⟩
    · rw [closed, Cache.stats_publish]
      split <;> rfl
    · simp [State.ran, closed]

/-- What can become of a request that nothing overlaps. -/
inductive Served (s : State V) (call : Call V) : Record V → State V → Prop
  | raised {s' : State V} : call.raised = true → s'.Quiet → s'.cache = s.cache →
      Served s call ⟨call, .error .cancelled, false⟩ s'
  | hit {v : V} {ready : Recency V} {s' : State V} : call.raised = false →
      s.cache.ready.use? call.key = some (v, ready) → s'.Quiet → s'.cache.ready = ready →
      s'.cache.stats.hits = s.cache.stats.hits + 1 → Served s call ⟨call, .ok v, false⟩ s'
  | miss {s' : State V} : call.raised = false → s.cache.ready.peek call.key = none →
      Replied s s' call.key call.verdict → Served s call ⟨call, call.verdict.answer, true⟩ s'

/-- **Every request is refused, finds a value, or calls its builder.** -/
theorem Quiet.served (hs : s.Quiet) (call : Call V) :
    Served s call (s.serve call).1 (s.serve call).2 := by
  cases hraised : call.raised with
  | true =>
    have hserve : s.serve call = (⟨call, .error .cancelled, false⟩, (s.ask call.key true).2) := by
      simp only [serve, hraised, ask_raised]
      simp [asked, answer, ran, Phase.asked]
    rw [hserve, ask_raised]
    exact .raised hraised ⟨hs.inflight, hs.next⟩ rfl
  | false =>
    cases huse : s.cache.ready.use? call.key with
    | some found =>
      have hserve : s.serve call = (⟨call, .ok found.1, false⟩, (s.ask call.key false).2) := by
        simp only [serve, hraised, ask_hit huse]
        simp [asked, answer, ran, Phase.asked]
      rw [hserve, ask_hit huse]
      exact .hit hraised huse ⟨hs.inflight, hs.next⟩ rfl rfl
    | none =>
      have hflight : s.cache.inflight.lookup call.key = none := by
        rw [hs.inflight]
        rfl
      have hreplied := hs.replied call.key call.verdict
      simp only [serve, hraised, ask_miss hs.next hflight huse, asked_opened, hreplied.answer, hreplied.ran]
      exact .miss hraised (Option.map_eq_none_iff.1 huse) hreplied

end State

/-! ## The keys of a table -/

section Lists

variable {α : Type} [DecidableEq α]

theorem dedup_concat (l : List α) (a : α) : (l ++ [a]).dedup = l.dedup.filter (· ≠ a) ++ [a] := by
  induction l with
  | nil => rfl
  | cons b l ih =>
    rw [List.cons_append]
    by_cases hl : b ∈ l
    · rw [List.dedup_cons_of_mem (List.mem_append_left _ hl), List.dedup_cons_of_mem hl, ih]
    · rw [List.dedup_cons_of_notMem hl]
      by_cases hb : b = a
      · rw [List.dedup_cons_of_mem (by simp [hb]), ih, List.filter_cons_of_neg (by simpa using hb)]
      · rw [List.dedup_cons_of_notMem (by simp [hl, hb]), ih, List.filter_cons_of_pos (by simpa using hb),
          List.cons_append]

/-- Of the first items of a list without repetition, one at most is lost when an item is taken out. -/
theorem take_filter_take {l : List α} (hl : l.Nodup) (a : α) (n : Nat) :
    ((l.take (n + 1)).filter (· ≠ a)).take n = (l.filter (· ≠ a)).take n := by
  rcases Nat.lt_or_ge n l.length with hlt | hge
  · have hfilter : (l.take (n + 1)).filter (· ≠ a) = (l.take (n + 1)).erase a := by
      rw [(hl.sublist (List.take_sublist ..)).erase_eq_filter]
      exact List.filter_congr fun x _ => by rw [bne, decide_not]; rfl
    have hlength : n ≤ ((l.take (n + 1)).filter (· ≠ a)).length := by
      rw [hfilter, List.length_erase, List.length_take, Nat.min_eq_left hlt]
      split <;> omega
    conv_rhs => rw [← List.take_append_drop (n + 1) l, List.filter_append,
      List.take_append_of_le_length hlength]
  · rw [List.take_of_length_le (l := l) (Nat.le_succ_of_le hge)]

theorem upTo_cons_filter {l : List α} (hl : l.Nodup) (capacity : Option Nat) (a : α) :
    upTo capacity (a :: (upTo capacity l).filter (· ≠ a)) = upTo capacity (a :: l.filter (· ≠ a)) := by
  cases capacity with
  | none => rfl
  | some n =>
    cases n with
    | zero => rfl
    | succ n => exact congrArg (a :: ·) (take_filter_take hl a n)

/-- An item that is moved to the front keeps the number of items. -/
theorem upTo_move {l : List α} (hl : l.Nodup) {capacity : Option Nat} {a : α} (ha : a ∈ upTo capacity l) :
    a :: (upTo capacity l).filter (· ≠ a) = upTo capacity (a :: l.filter (· ≠ a)) := by
  rw [← upTo_cons_filter hl]
  cases capacity with
  | none => rfl
  | some n =>
    have hle : ((l.take n).filter (· ≠ a)).length < n :=
      Nat.lt_of_lt_of_le (List.length_filter_lt_length_iff_exists.2 ⟨a, ha, by simp⟩)
        (List.length_take_le n l)
    exact (List.take_of_length_le hle).symm

end Lists

theorem upTo_subset {α : Type} {smaller larger : Option Nat} (h : ∀ n ∈ larger, ∃ m ∈ smaller, m ≤ n)
    (l : List α) : upTo smaller l ⊆ upTo larger l := by
  cases larger with
  | none =>
    cases smaller with
    | none => exact List.Subset.refl l
    | some m => exact List.take_subset m l
  | some n =>
    obtain ⟨m, rfl, hle⟩ := h n rfl
    exact (List.take_sublist_take_left hle).subset

end OpFusion.Flight

namespace OpFusion.Recency

variable {V : Type} {r r' : Recency V} {k : Key} {v : V}

/-- The keys of a table, from the last used one on. -/
def keys (r : Recency V) : List Key := r.entries.map Prod.fst

theorem mem_keys : k ∈ r.keys ↔ ∃ v, r.peek k = some v := by
  rw [keys, List.mem_map, ← Option.isSome_iff_exists, peek, List.lookup_isSome_iff]
  exact exists_congr fun p => and_congr_right fun _ => by rw [beq_iff_eq, eq_comm]

theorem keys_insert (t : List (Key × V)) (k : Key) (v : V) :
    (Table.insert t k v).map Prod.fst = k :: (t.map Prod.fst).filter (· ≠ k) := by
  rw [Table.insert, Table.erase, List.map_cons, List.filter_map]
  rfl

theorem keys_put (r : Recency V) (k : Key) (v : V) :
    (r.put k v).keys = Flight.upTo r.capacity (k :: r.keys.filter (· ≠ k)) := by
  rw [keys, keys, ← keys_insert r.entries k v, put]
  cases r.capacity with
  | none => rfl
  | some n => exact List.map_take

theorem keys_use (h : r.use? k = some (v, r')) :
    r'.keys = k :: r.keys.filter (· ≠ k) ∧ r'.capacity = r.capacity := by
  obtain ⟨w, -, heq⟩ := Option.map_eq_some_iff.1 h
  cases heq
  exact ⟨keys_insert r.entries k v, rfl⟩

end OpFusion.Recency

namespace OpFusion.Flight

variable {V : Type}

/-! ## Logs -/

section Logs

variable (log : List (Record V)) (r : Record V) (k : Key)

theorem givenKeys_concat :
    givenKeys (log ++ [r]) = givenKeys log ++ if r.answer.isOk then [r.call.key] else [] := by
  rw [givenKeys, List.filter_append, List.map_append, List.filter_singleton]
  cases r.answer.isOk <;> rfl

/-- A request that gives a value makes its key the last used one. -/
theorem recent_given (capacity : Option Nat) (h : r.answer.isOk = true) :
    recent capacity (log ++ [r]) =
      upTo capacity (r.call.key :: (givenKeys log).dedup.reverse.filter (· ≠ r.call.key)) := by
  rw [recent, givenKeys_concat, if_pos h, dedup_concat, List.reverse_append, List.filter_reverse]
  rfl

theorem recent_failed (capacity : Option Nat) (h : r.answer.isOk = false) :
    recent capacity (log ++ [r]) = recent capacity log := by
  rw [recent, givenKeys_concat, h, if_neg Bool.false_ne_true, List.append_nil, recent]

theorem lastBuilt?_concat :
    lastBuilt? (log ++ [r]) k =
      if r.call.key = k ∧ r.ran = true then r.call.verdict.outcome.bind Except.toOption
      else lastBuilt? log k := by
  rw [lastBuilt?, List.reverse_append, List.reverse_singleton, List.singleton_append, List.find?_cons]
  by_cases h : r.call.key = k ∧ r.ran = true
  · simp [h]
  · rw [if_neg h]
    have hfalse : (decide (r.call.key = k) && r.ran) = false := by simpa using h
    rw [hfalse]
    rfl

end Logs

namespace Course

variable {c c' : Course V} {capacity smaller larger : Option Nat} {call : Call V} {ops : List (Op V)}

/-! ## One course -/

/-- Between requests, ready values are those that were used last, each as it was built last. -/
structure Recent (capacity : Option Nat) (c : Course V) : Prop where
  quiet : c.state.Quiet
  bound : c.state.cache.ready.capacity = capacity
  keys : c.state.cache.ready.keys = recent capacity c.log
  values : ∀ k v, c.state.cache.ready.peek k = some v → lastBuilt? c.log k = some v

theorem recent_empty (capacity : Option Nat) : Recent capacity ({ state := .empty capacity } : Course V) where
  quiet := State.quiet_empty capacity
  bound := rfl
  keys := by cases capacity <;> simp [recent, upTo, givenKeys, State.empty, Cache.empty, Recency.keys]
  values k v h := by cases h

theorem exists_next_eq (hc : c.state.Quiet) (call : Call V) :
    ∃ record s', c.next (.request call) = ⟨s', c.log ++ [record]⟩ ∧ c.state.Served call record s' :=
  ⟨_, _, rfl, hc.served call⟩

theorem nodup_given (log : List (Record V)) : (givenKeys log).dedup.reverse.Nodup :=
  List.nodup_reverse.2 (List.nodup_dedup _)

/-- **A request keeps the ready values those that were used last.** -/
theorem Recent.request (h : Recent capacity c) (call : Call V) :
    Recent capacity (c.next (.request call)) := by
  obtain ⟨record, s', hnext, hserved⟩ := exists_next_eq h.quiet call
  rw [hnext]
  cases hserved with
  | raised _ hquiet hcache =>
    refine ⟨hquiet, ?_, ?_, fun k v hpeek => ?_⟩
    · rw [hcache, h.bound]
    · rw [hcache, recent_failed _ _ _ rfl, h.keys]
    · rw [hcache] at hpeek
      rw [lastBuilt?_concat, if_neg (by simp), h.values k v hpeek]
  | @hit w ready s' _ huse hquiet hready _ =>
    obtain ⟨hkeys, hcapacity⟩ := Recency.keys_use huse
    have hmem : call.key ∈ recent capacity c.log :=
      h.keys ▸ Recency.mem_keys.2 ⟨w, (Recency.peek_use (j := call.key) huse).1⟩
    refine ⟨hquiet, ?_, ?_, fun k v hpeek => ?_⟩
    · rw [hready, hcapacity, h.bound]
    · rw [hready, hkeys, h.keys, recent_given _ _ _ rfl]
      exact upTo_move (nodup_given c.log) hmem
    · rw [hready, (Recency.peek_use huse).2] at hpeek
      rw [lastBuilt?_concat, if_neg (by simp), h.values k v hpeek]
  | miss _ hnone hreplied =>
    have hready := hreplied.ready
    have hold : ∀ k v, c.state.cache.ready.peek k = some v →
        lastBuilt? (c.log ++ [⟨call, call.verdict.answer, true⟩]) k = some v := by
      intro k v hpeek
      rw [lastBuilt?_concat, if_neg, h.values k v hpeek]
      rintro ⟨rfl, -⟩
      cases hnone.symm.trans hpeek
    cases hanswer : call.verdict.answer with
    | error err =>
      rw [hanswer] at hready hold
      refine ⟨hreplied.quiet, ?_, ?_, fun k v hpeek => ?_⟩
      · rw [hready, h.bound]
      · rw [hready, recent_failed _ _ _ rfl, h.keys]
      · rw [hready] at hpeek
        exact hold k v hpeek
    | ok w =>
      rw [hanswer] at hready hold
      refine ⟨hreplied.quiet, ?_, ?_, fun k v hpeek => ?_⟩
      · rw [hready]
        exact h.bound
      · rw [hready, Recency.keys_put, h.bound, h.keys, recent_given _ _ _ rfl]
        exact upTo_cons_filter (nodup_given c.log) capacity call.key
      · rw [hready] at hpeek
        rcases Recency.peek_put hpeek with ⟨rfl, rfl⟩ | hpeek
        · rw [lastBuilt?_concat, if_pos ⟨rfl, rfl⟩]
          exact Verdict.outcome_of_answer hanswer
        · exact hold k v hpeek

theorem Recent.next (h : Recent capacity c) (op : Op V) : Recent capacity (c.next op) := by
  cases op with
  | request call => exact h.request call
  | peek k => exact h
  | contains k => exact h
  | length => exact h
  | stats => exact h

theorem recent_of (capacity : Option Nat) (ops : List (Op V)) : Recent capacity (Course.of capacity ops) := by
  have hfold : ∀ (ops : List (Op V)) (c : Course V), Recent capacity c →
      Recent capacity (ops.foldl Course.next c) := by
    intro ops
    induction ops with
    | nil => exact fun c h => h
    | cons op ops ih => exact fun c h => ih (c.next op) (h.next op)
  exact hfold ops _ (recent_empty capacity)

/-! ## Two courses -/

/-- How often a value was found. -/
def hits (c : Course V) : Nat := c.state.cache.stats.hits

/-- A request finds a value if and only if its key was used lately. -/
theorem Recent.hits_request (h : Recent capacity c) (call : Call V) :
    (c.next (.request call)).hits =
      c.hits + if call.raised = false ∧ call.key ∈ recent capacity c.log then 1 else 0 := by
  obtain ⟨record, s', hnext, hserved⟩ := exists_next_eq h.quiet call
  rw [hnext, ← h.keys]
  cases hserved with
  | raised hraised _ hcache =>
    rw [if_neg (by simp [hraised])]
    exact congrArg (·.stats.hits) hcache
  | hit hraised huse _ _ hhits =>
    rw [if_pos ⟨hraised, Recency.mem_keys.2 ⟨_, (Recency.peek_use (j := call.key) huse).1⟩⟩]
    exact hhits
  | miss _ hnone hreplied =>
    rw [if_neg (by simp [Recency.mem_keys, hnone])]
    exact hreplied.hits

/-- A request whose builder would not fail gives a value, unless it is refused. -/
theorem Recent.given_request (h : Recent capacity c) {v : V} (hv : call.verdict = ⟨false, some (.ok v)⟩) :
    givenKeys (c.next (.request call)).log = givenKeys c.log ++ if call.raised then [] else [call.key] := by
  obtain ⟨record, s', hnext, hserved⟩ := exists_next_eq h.quiet call
  rw [hnext, givenKeys_concat]
  cases hserved with
  | raised hraised _ _ => rw [hraised]; rfl
  | hit hraised _ _ _ _ => rw [hraised]; rfl
  | miss hraised _ _ => rw [hraised, hv]; rfl

/-- Two courses of the same requests in caches of two capacities: the larger one is not behind. -/
structure Abreast (smaller larger : Option Nat) (c c' : Course V) : Prop where
  smaller : Recent smaller c
  larger : Recent larger c'
  given : givenKeys c.log = givenKeys c'.log
  hits : c.hits ≤ c'.hits

theorem Abreast.next (h : Abreast smaller larger c c') (hle : ∀ n ∈ larger, ∃ m ∈ smaller, m ≤ n) (op : Op V)
    (hop : ∀ call, op = .request call → ∃ v, call.verdict = ⟨false, some (.ok v)⟩) :
    Abreast smaller larger (c.next op) (c'.next op) := by
  cases op with
  | request call =>
    obtain ⟨v, hv⟩ := hop call rfl
    refine ⟨h.smaller.next _, h.larger.next _, ?_, ?_⟩
    · rw [h.smaller.given_request hv, h.larger.given_request hv, h.given]
    · rw [h.smaller.hits_request, h.larger.hits_request]
      have hsubset : call.key ∈ recent smaller c.log → call.key ∈ recent larger c'.log := by
        rw [recent, recent, ← h.given]
        exact fun hmem => upTo_subset hle _ hmem
      have hhits := h.hits
      split
      · next hfound => rw [if_pos ⟨hfound.1, hsubset hfound.2⟩]; omega
      · omega
  | peek k => exact h
  | contains k => exact h
  | length => exact h
  | stats => exact h

theorem Abreast.of (hle : ∀ n ∈ larger, ∃ m ∈ smaller, m ≤ n)
    (hops : ∀ call, .request call ∈ ops → ∃ v, call.verdict = ⟨false, some (.ok v)⟩) :
    Abreast smaller larger (Course.of smaller ops) (Course.of larger ops) := by
  have hfold : ∀ (ops : List (Op V)) (c c' : Course V), Abreast smaller larger c c' →
      (∀ call, .request call ∈ ops → ∃ v, call.verdict = ⟨false, some (.ok v)⟩) →
      Abreast smaller larger (ops.foldl Course.next c) (ops.foldl Course.next c') := by
    intro ops
    induction ops with
    | nil => exact fun c c' h _ => h
    | cons op ops ih =>
      intro c c' h hops
      refine ih _ _ (h.next hle op fun call hop => hops call (by simp [hop])) fun call hmem => ?_
      exact hops call (List.mem_cons_of_mem op hmem)
  exact hfold ops _ _ ⟨recent_empty smaller, recent_empty larger, rfl, Nat.le_refl _⟩ hops

/-- **Ready values are exactly those that were used last.** After any requests that nothing overlaps, whose
tokens may be raised and whose builders may fail, unwind or raise the token, and any reading in between,
the ready keys are the last distinct keys among the requests that gave a value, as many as the capacity
allows and from the last one on, and each has what the last builder of its key made. If no builder fails,
a cache of a larger capacity finds a value at least as often in the same requests. -/
theorem ready_eq_recent (capacity : Option Nat) (ops : List (Op V)) :
    ((Course.of capacity ops).state.cache.ready.keys = recent capacity (Course.of capacity ops).log ∧
      ∀ k v, (Course.of capacity ops).state.cache.ready.peek k = some v ↔
        k ∈ recent capacity (Course.of capacity ops).log ∧
          lastBuilt? (Course.of capacity ops).log k = some v) ∧
    ∀ larger : Option Nat, (∀ n ∈ larger, ∃ m ∈ capacity, m ≤ n) →
      (∀ call, .request call ∈ ops → ∃ v, call.verdict = ⟨false, some (.ok v)⟩) →
      (Course.of capacity ops).hits ≤ (Course.of larger ops).hits := by
  have hrecent := recent_of capacity ops
  refine ⟨⟨hrecent.keys, fun k v => ⟨fun hpeek => ?_, ?_⟩⟩, fun larger hle hops => (Abreast.of hle hops).hits⟩
  · exact ⟨hrecent.keys ▸ Recency.mem_keys.2 ⟨v, hpeek⟩, hrecent.values k v hpeek⟩
  · rintro ⟨hmem, hbuilt⟩
    obtain ⟨w, hpeek⟩ := Recency.mem_keys.1 (hrecent.keys ▸ hmem)
    rw [hpeek, ← hrecent.values k w hpeek, hbuilt]

/-- A request for a key whose builder makes a number. -/
def asking (b : UInt8) (n : Nat) : Op Nat := .request { key := .fill b, verdict := ⟨false, some (.ok n)⟩ }

/-- Requests for three keys in turn. -/
def turns : List (Op Nat) :=
  [asking 1 10, asking 2 20, .peek (.fill 2), asking 1 11, asking 3 30, asking 2 21]

/-- With two places the second key makes room for the third and is built again; with three it stays. -/
theorem ready_eq_recent_turns :
    (∀ n ∈ some 3, ∃ m ∈ some 2, m ≤ n) ∧
      (∀ call, .request call ∈ turns → ∃ v, call.verdict = ⟨false, some (.ok v)⟩) ∧
      (Course.of (some 2) turns).hits ≤ (Course.of (some 3) turns).hits ∧
      (Course.of (some 2) turns).state.cache.ready.entries = [(.fill 2, 21), (.fill 3, 30)] ∧
      (Course.of (some 3) turns).state.cache.ready.entries = [(.fill 2, 20), (.fill 3, 30), (.fill 1, 10)] ∧
      (Course.of (some 2) turns).hits = 1 ∧ (Course.of (some 3) turns).hits = 2 := by
  have hle : ∀ n ∈ some 3, ∃ m ∈ some 2, m ≤ n := by simp
  have hops : ∀ call, .request call ∈ turns → ∃ v, call.verdict = ⟨false, some (.ok v)⟩ := by
    intro call hcall
    simp only [turns, asking, List.mem_cons, Op.request.injEq, reduceCtorEq, List.not_mem_nil, or_false,
      false_or] at hcall
    rcases hcall with rfl | rfl | rfl | rfl | rfl <;> exact ⟨_, rfl⟩
  exact ⟨hle, hops, (ready_eq_recent (some 2) turns).2 (some 3) hle hops, rfl, rfl, rfl, rfl⟩

end Course

end OpFusion.Flight
