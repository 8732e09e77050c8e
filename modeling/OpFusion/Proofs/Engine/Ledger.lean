/-
  What the counters of an engine have to do with each other.

  A request enters the counters in one of three ways (`Entered`): its module was in memory, or was loaded
  from the store, or the toolchain was asked. Nothing else counts, so the counters balance whatever becomes
  of the store meanwhile (`stats_balance`).
-/
import OpFusion.Proofs.Engine.History

namespace OpFusion.Engine

variable {e : Engine} {t : Toolchain}

/-! ## What is done with an engine -/

/-- What is done with one engine, and to its store. Each request has tools of its own, which may make
whatever they like. -/
inductive Deed where
  | compile (tools : Tools) (g : Graph)
  | run (tools : Tools) (g : Graph) (inputs : List Buffer) (outputs : List (Option Buffer))
  | invalidate (k : Key)
  | clearMemory
  /-- Whatever others do to the store and the files, and refuse from now on. -/
  | tamper (store : Option Store) (files : Files) (faults : StoreFaults)

/-- The engine after a deed. -/
def undergo (e : Engine) : Deed → Engine
  | .compile tools g => (e.compile tools g false).2
  | .run tools g inputs outputs => (e.run tools g inputs outputs).2
  | .invalidate k => (e.invalidate k).2
  | .clearMemory => e.clearMemory
  | .tamper store files faults => { e with store, files, faults }

/-- The engine after deeds. -/
def undergoAll (e : Engine) (deeds : List Deed) : Engine := deeds.foldl undergo e

/-- A module is asked for, and the graph has a module and a key. -/
def Deed.isRequest : Deed → Bool
  | .compile tools g | .run tools g _ _ => (Request.of? tools.toolchain g false).isSome
  | _ => false

/-! ## What a build counts -/

theorem stats_removeStored (e : Engine) (k : Key) : (e.removeStored k).2.stats = e.stats := by
  unfold removeStored
  split
  · rfl
  · split <;> rfl

theorem stats_writeStore (e : Engine) (k : Key) (bytes : List UInt8) :
    (e.writeStore k bytes).2.stats = e.stats := by
  unfold writeStore
  split
  · rfl
  · split <;> rfl

theorem stats_load (e : Engine) (loader : Loader) (m : Module) (k : Key) (a : Artifact) :
    (e.load loader m k a).2.stats = e.stats := by
  unfold load
  split <;> rfl

theorem stats_loadBytes (e : Engine) (loader : Loader) (m : Module) (k : Key) (bytes : List UInt8) :
    (e.loadBytes loader m k bytes).2.stats = e.stats := by
  unfold loadBytes
  split
  · rfl
  · split
    · rfl
    · exact stats_load e loader m k _

theorem stats_discard (e : Engine) (k : Key) (reason : Error) :
    (e.discard k reason).stats = { e.stats with corruptEntries := e.stats.corruptEntries + 1 } := by
  have hremoved := stats_removeStored ({ e with corruptEntries := e.corruptEntries + 1 }.note .warn
    "discarding corrupt cache entry" (some reason.message)) k
  unfold discard
  dsimp only
  split
  · next heq =>
    rw [heq] at hremoved
    exact hremoved
  · next heq =>
    rw [heq] at hremoved
    exact hremoved

theorem stats_keepSource (e : Engine) (m : Module) (k : Key) : (e.keepSource m k).stats = e.stats := by
  unfold keepSource
  dsimp only
  split <;> rfl

theorem stats_compileArtifact (e : Engine) (t : Toolchain) (m : Module) (k : Key) :
    (e.compileArtifact t m k).2.2.stats =
      { e.stats with toolchainBuilds := e.stats.toolchainBuilds + 1 } := by
  have hsource : (if e.config.keepSources then e.keepSource m k else e).stats = e.stats := by
    split
    · exact stats_keepSource e m k
    · rfl
  rw [← hsource]
  unfold compileArtifact
  dsimp only
  split <;> rfl

theorem stats_persist (e : Engine) (k : Key) (a : Artifact) : (e.persist k a).stats = e.stats := by
  have hwritten := stats_writeStore e k a.encode
  unfold persist
  split
  · next heq =>
    rw [heq] at hwritten
    exact hwritten
  · next heq =>
    rw [heq] at hwritten
    exact hwritten

/-- A look into the store counts what it loads, or what it finds unusable. -/
theorem stats_loadStored (e : Engine) (loader : Loader) (m : Module) (k : Key) :
    (∃ l, (e.loadStored loader m k).1 = some l ∧
      (e.loadStored loader m k).2.stats = { e.stats with storeHits := e.stats.storeHits + 1 }) ∨
    (∃ corrupt ≤ 1, (e.loadStored loader m k).1 = none ∧ (e.loadStored loader m k).2.stats =
      { e.stats with corruptEntries := e.stats.corruptEntries + corrupt }) := by
  unfold loadStored
  split
  · exact .inr ⟨0, Nat.zero_le 1, rfl, rfl⟩
  · exact .inr ⟨0, Nat.zero_le 1, rfl, rfl⟩
  · next bytes _ =>
    have hloaded := stats_loadBytes e loader m k bytes
    split
    · next l e₁ heq =>
      rw [heq] at hloaded
      refine .inl ⟨l, rfl, ?_⟩
      rw [← hloaded]
      rfl
    · next err e₁ heq =>
      rw [heq] at hloaded
      refine .inr ⟨1, Nat.le_refl 1, rfl, ?_⟩
      rw [stats_discard, hloaded]

/-- How a build counts: it loads a module from the store, or asks the toolchain. -/
inductive Counted (s : EngineStats) : Flight.Verdict Loaded → EngineStats → Prop
  | loaded (l : Loaded) :
    Counted s { outcome := some (.ok l) } { s with storeHits := s.storeHits + 1 }
  | compiled (verdict : Flight.Verdict Loaded) (corrupt : Nat) (hcorrupt : corrupt ≤ 1) :
    Counted s verdict { s with
      toolchainBuilds := s.toolchainBuilds + 1
      corruptEntries := s.corruptEntries + corrupt }

/-- **A build counts once**, whatever the store has and the tools make. -/
theorem counted_build (e : Engine) (t : Toolchain) (loader : Loader) (m : Module) (k : Key) :
    Counted e.stats (e.build ⟨t, loader⟩ m k).1 (e.build ⟨t, loader⟩ m k).2.stats := by
  rcases stats_loadStored e.looking loader m k with ⟨l, hl, hstats⟩ | ⟨corrupt, hcorrupt, hl, hstats⟩
  · rw [build_of_loaded hl, hstats]
    exact .loaded l
  · have hcompiled := stats_compileArtifact (e.looking.loadStored loader m k).2 t m k
    rw [hstats] at hcompiled
    have hbuild : (e.build ⟨t, loader⟩ m k).2.stats = (e.compiling t loader m k).stats := by
      cases hmade : made t m k with
      | none =>
        obtain ⟨err, hbuild⟩ := build_of_unmade hl hmade
        rw [hbuild]
      | some library => rw [build_of_made hl hmade, stats_load, storing, stats_persist]
    rw [hbuild, compiling, hcompiled]
    exact .compiled _ corrupt hcorrupt

/-! ## What a request counts -/

/-- How a request enters the counters. -/
inductive Entered (s : EngineStats) : EngineStats → Prop
  | hit : Entered s { s with memoryHits := s.memoryHits + 1 }
  | loaded : Entered s { s with memoryMisses := s.memoryMisses + 1, storeHits := s.storeHits + 1 }
  | compiled (failures corrupt : Nat) (hfailures : failures ≤ 1) (hcorrupt : corrupt ≤ 1) :
    Entered s { s with
      memoryMisses := s.memoryMisses + 1
      toolchainBuilds := s.toolchainBuilds + 1
      failures := s.failures + failures
      corruptEntries := s.corruptEntries + corrupt }

theorem stats_noted (e : Engine) (k : Key) : (e.noted k).stats = e.stats := by
  unfold noted
  split <;> rfl

theorem stats_building (e : Engine) (k : Key) :
    (e.building k).stats = { e.stats with memoryMisses := e.stats.memoryMisses + 1 } := by
  rw [← stats_noted e k]
  rfl

/-- A request that is over has a miss on record, and a failure if it fails. -/
theorem stats_closed (modules : Flight.State Loaded) (k : Key) (raised : Bool)
    (outcome : Except Error Loaded) :
    (modules.closed k raised outcome).cache.stats.hits = modules.cache.stats.hits ∧
    (modules.closed k raised outcome).cache.stats.misses = modules.cache.stats.misses + 1 ∧
    (modules.closed k raised outcome).cache.stats.failures =
      modules.cache.stats.failures + if outcome.isOk then 0 else 1 := by
  have hstats := Cache.stats_publish (modules.opened k).cache k modules.cache.nextFlight outcome
  rw [Flight.State.closed, hstats]
  cases outcome <;> exact ⟨rfl, rfl, rfl⟩

/-- **A request counts once**: as a hit, as a load from the store, or as a job of the toolchain. -/
theorem entered_request (t : Toolchain) (loader : Loader) (m : Module) (k : Key)
    (hquiet : e.modules.Quiet) :
    (e.request ⟨t, loader⟩ m k false).2.modules.Quiet ∧
      Entered e.stats (e.request ⟨t, loader⟩ m k false).2.stats := by
  have hsame := modules_noted e k
  cases hready : e.modules.cache.ready.use? k with
  | some found =>
    obtain ⟨v, ready⟩ := found
    have hnoted : (e.noted k).modules.cache.ready.use? k = some (v, ready) := by rw [hsame, hready]
    rw [request_hit hnoted, Flight.State.ask_hit hnoted, ← stats_noted e k]
    refine ⟨⟨?_, ?_⟩, .hit⟩
    · rw [hsame]
      exact hquiet.inflight
    · rw [hsame]
      exact hquiet.next
  | none =>
    obtain ⟨raises, result, e', hbuild, hrequest⟩ := request_unready t loader m hquiet hready
    have hcounted := counted_build (e.building k) t loader m k
    rw [hbuild, stats_building] at hcounted
    rw [hrequest]
    refine ⟨Flight.State.quiet_closed hquiet k _ _, ?_⟩
    set outcome : Except Error Loaded := if raises then .error .cancelled else result
    obtain ⟨hhits, hmisses, hfailures⟩ := stats_closed e.modules k raises outcome
    have hstats : ({ e' with modules := e.modules.closed k raises outcome } : Engine).stats =
        { e'.stats with
          memoryHits := e.stats.memoryHits
          memoryMisses := e.stats.memoryMisses + 1
          failures := e.stats.failures + if outcome.isOk then 0 else 1 } := by
      simp only [stats, hhits, hmisses, hfailures]
    rw [hstats]
    dsimp only at hcounted
    generalize e'.stats = s at hcounted
    cases hcounted with
    | loaded l => exact .loaded
    | compiled verdict corrupt hcorrupt => exact .compiled _ corrupt (by split <;> omega) hcorrupt

theorem raised_of {g : Graph} {raised : Bool} {r : Request} (hr : Request.of? t g raised = some r) :
    r.raised = raised := by
  unfold Request.of? at hr
  split at hr
  · cases hr
  · split at hr
    · cases hr
    · cases hr
      rfl

/-! ## What all deeds count -/

/-- No request is under way, and the counters balance after so many requests. -/
structure Balanced (e : Engine) (requests : Nat) : Prop where
  quiet : e.modules.Quiet
  misses : e.stats.memoryMisses = e.stats.storeHits + e.stats.toolchainBuilds
  corrupt : e.stats.corruptEntries ≤ e.stats.toolchainBuilds
  failures : e.stats.failures ≤ e.stats.toolchainBuilds
  requests : e.stats.memoryHits + e.stats.memoryMisses = requests

namespace Balanced

variable {e' : Engine} {n : Nat}

theorem restart (e : Engine) : e.restart.Balanced 0 :=
  ⟨Flight.State.quiet_empty _, rfl, Nat.le_refl 0, Nat.le_refl 0, rfl⟩

theorem of_stats (h : e.Balanced n) (hquiet : e'.modules.Quiet) (hstats : e'.stats = e.stats) :
    e'.Balanced n where
  quiet := hquiet
  misses := hstats ▸ h.misses
  corrupt := hstats ▸ h.corrupt
  failures := hstats ▸ h.failures
  requests := hstats ▸ h.requests

theorem entered (h : e.Balanced n) (hquiet : e'.modules.Quiet) (hentered : Entered e.stats e'.stats) :
    e'.Balanced (n + 1) := by
  obtain ⟨-, hmisses, hcorrupt, hfailures, hrequests⟩ := h
  generalize hs : e'.stats = s at hentered
  cases hentered with
  | hit => refine ⟨hquiet, ?_, ?_, ?_, ?_⟩ <;> simp only [hs] <;> omega
  | loaded => refine ⟨hquiet, ?_, ?_, ?_, ?_⟩ <;> simp only [hs] <;> omega
  | compiled failures corrupt _ _ => refine ⟨hquiet, ?_, ?_, ?_, ?_⟩ <;> simp only [hs] <;> omega

theorem compile (h : e.Balanced n) (tools : Tools) (g : Graph) :
    (e.compile tools g false).2.Balanced
      (n + if (Request.of? tools.toolchain g false).isSome then 1 else 0) := by
  obtain ⟨t, loader⟩ := tools
  cases hr : Request.of? t g false with
  | none =>
    obtain ⟨err, hcompile⟩ := compile_of_none hr e loader
    rw [hcompile]
    exact h
  | some r =>
    have hraised : r.raised = false := raised_of hr
    rw [compile_of_request hr, hraised]
    obtain ⟨hquiet, hentered⟩ := entered_request r.toolchain loader r.module r.key h.quiet
    exact h.entered hquiet hentered

/-- **A deed keeps the counters balanced.** -/
theorem undergo (h : e.Balanced n) (deed : Deed) :
    (e.undergo deed).Balanced (n + if deed.isRequest then 1 else 0) := by
  cases deed with
  | compile tools g => exact h.compile tools g
  | run tools g inputs outputs =>
    obtain ⟨units, hrun⟩ := exists_run_eq e tools g inputs outputs
    have hcompiled := h.compile tools g
    rw [Engine.undergo, hrun]
    exact hcompiled.of_stats hcompiled.quiet rfl
  | invalidate k =>
    have hkept : Kept (fun _ _ => True) { e with modules := e.modules.run [.invalidate k] }
      (e.invalidate k).2 := removeStored_kept _ k
    refine h.of_stats ?_ (stats_removeStored _ k)
    rw [Engine.undergo, hkept.modules]
    exact ⟨h.quiet.inflight, h.quiet.next⟩
  | clearMemory => exact h.of_stats ⟨h.quiet.inflight, h.quiet.next⟩ rfl
  | tamper store files faults => exact h.of_stats h.quiet rfl

theorem undergoAll (h : e.Balanced n) (deeds : List Deed) :
    (e.undergoAll deeds).Balanced (n + deeds.countP Deed.isRequest) := by
  induction deeds generalizing e n with
  | nil => exact h
  | cons deed deeds ih =>
    have hdeeds := ih (h.undergo deed)
    rw [List.countP_cons, Nat.add_comm (deeds.countP _), ← Nat.add_assoc]
    exact hdeeds

end Balanced

/-- **The counters of an engine balance** after all that was done with it and to its store: what was not in
memory was loaded from the store or is a job of the toolchain, no more is unusable and no more fails than
there are jobs, and each request for a graph that has a module and a key was either in memory or was not. -/
theorem stats_balance (config : Config) (store : Option Store) (files : Files) (deeds : List Deed) :
    let s := ((restart { config, store, files }).undergoAll deeds).stats
    s.memoryMisses = s.storeHits + s.toolchainBuilds ∧ s.corruptEntries ≤ s.toolchainBuilds ∧
      s.failures ≤ s.toolchainBuilds ∧ s.memoryHits + s.memoryMisses = deeds.countP Deed.isRequest := by
  have h := (Balanced.restart { config, store, files }).undergoAll deeds
  rw [Nat.zero_add] at h
  exact ⟨h.misses, h.corrupt, h.failures, h.requests⟩

end OpFusion.Engine
