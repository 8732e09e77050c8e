/-
  How often the toolchain is asked, in every history.

  As long as the store refuses nothing, what it has after a history of calls is what each call by itself
  makes of it (`Call.after`), whatever memory forgets: a module in memory has something usable in the store
  (`Tracks`). So a request asks the toolchain if and only if there is nothing usable under its key
  (`Tracks.request`).
-/
import OpFusion.Proofs.Engine.Stock
import OpFusion.Proofs.Engine.Transparency

namespace OpFusion.Engine

/-! ## Calls -/

/-- What is asked of the engines on one store. Each call has a toolchain of its own, which may make
whatever it likes. -/
inductive Call where
  | compile (t : Toolchain) (g : Graph) (raised : Bool)
  | run (t : Toolchain) (g : Graph) (inputs : List Buffer) (outputs : List (Option Buffer))
  | invalidate (k : Key)
  | clearMemory
  /-- A new engine on the same files and store. -/
  | restart (config : Config)

/-- The engine after a call. -/
def serve (loader : Loader) (e : Engine) : Call → Engine
  | .compile t g raised => (e.compile ⟨t, loader⟩ g raised).2
  | .run t g inputs outputs => (e.run ⟨t, loader⟩ g inputs outputs).2
  | .invalidate k => (e.invalidate k).2
  | .clearMemory => e.clearMemory
  | .restart config => { e with config }.restart

/-- The engine after calls. -/
def serveAll (loader : Loader) (e : Engine) (calls : List Call) : Engine := calls.foldl (serve loader) e

/-- A request for the module of a graph: its toolchain, its key, and whether its token is raised. -/
structure Request where
  toolchain : Toolchain
  module : Module
  key : Key
  raised : Bool

/-- The request for a graph, if it is a module and has a key. -/
def Request.of? (t : Toolchain) (g : Graph) (raised : Bool) : Option Request :=
  match Assembly.assemble g with
  | .error _ => none
  | .ok m =>
    match t.identity.map m.key with
    | .error _ => none
    | .ok k => some ⟨t, m, k, raised⟩

/-- The request that a call makes. -/
def Call.request? : Call → Option Request
  | .compile t g raised => Request.of? t g raised
  | .run t g _ _ => Request.of? t g false
  | _ => none

/-- What the compilation in a call gives. -/
def Call.compiled? (loader : Loader) (e : Engine) : Call → Option (Except Error Loaded)
  | .compile t g raised => some (e.compile ⟨t, loader⟩ g raised).1
  | .run t g _ _ => some (e.compile ⟨t, loader⟩ g false).1
  | _ => none

/-- The store refuses nothing in a call. -/
def Smooth (loader : Loader) (e : Engine) : Call → Prop
  | .compile t g raised => (e.compile ⟨t, loader⟩ g raised).2.refusals = e.refusals
  | .run t g inputs outputs => (e.run ⟨t, loader⟩ g inputs outputs).2.refusals = e.refusals
  | .invalidate k => (e.invalidate k).1.isOk = true
  | .clearMemory | .restart _ => True

/-- The store refuses nothing in calls. -/
def SmoothAll (loader : Loader) : Engine → List Call → Prop
  | _, [] => True
  | e, call :: calls => e.Smooth loader call ∧ SmoothAll loader (e.serve loader call) calls

/-- The library that is made for a request fits in memory. -/
def Request.Short (r : Request) : Prop :=
  ∀ library, made r.toolchain r.module r.key = some library → Wire.Short library

/-- The toolchain is asked: the token is not raised, and there is nothing usable. -/
def Request.asks (loader : Loader) (c : Stock) (r : Request) : Bool :=
  !r.raised && !stocked loader c r.key

/-- What a store has after a request. -/
def Request.after (loader : Loader) (c : Stock) (r : Request) : Stock :=
  if r.asks loader c then Function.update c r.key (record r.toolchain r.module r.key) else c

/-- What a store has after a call. -/
def Call.after (loader : Loader) (c : Stock) : Call → Stock
  | .compile t g raised => (Request.of? t g raised).elim c (Request.after loader c)
  | .run t g _ _ => (Request.of? t g false).elim c (Request.after loader c)
  | .invalidate k => Function.update c k none
  | .clearMemory | .restart _ => c

variable {e e' : Engine} {loader : Loader} {t : Toolchain} {g : Graph} {m : Module} {k : Key} {c : Stock}
  {r : Request} {call : Call} {calls : List Call}

/-! ## One request -/

/-- No request is under way, the store has what a map gives, and so something usable under the key of each
module in memory. -/
structure Tracks (loader : Loader) (e : Engine) (c : Stock) : Prop where
  quiet : e.modules.Quiet
  contents : e.Contents c
  ready : ∀ k l, e.modules.cache.ready.peek k = some l → stocked loader c k = true

/-- What comes of a request. -/
structure Served (loader : Loader) (e e' : Engine) (c : Stock) (r : Request)
    (answer : Except Error Loaded) : Prop where
  tracks : e'.Tracks loader (r.after loader c)
  builds : e'.toolchainBuilds = e.toolchainBuilds + if r.asks loader c then 1 else 0
  corrupt : e'.corruptEntries = e.corruptEntries + if r.asks loader c && (c r.key).isSome then 1 else 0
  answer : answer.isOk = (!r.raised && (stocked loader c r.key ||
    (!(r.toolchain.build r.module r.key).raises &&
      (made r.toolchain r.module r.key).any (opens loader r.module r.key))))

theorem stocked_update_self (v : Option (List UInt8)) :
    stocked loader (Function.update c k v) k = v.any (usable loader k) := by
  rw [stocked, Function.update_self]

theorem stocked_update_of_ne {j : Key} (h : j ≠ k) (v : Option (List UInt8)) :
    stocked loader (Function.update c k v) j = stocked loader c j := by
  rw [stocked, Function.update_of_ne h, stocked]

/-- There is something usable under the key of a request that gets a module. -/
theorem usable_record (hloader : loader [] = none) (hshort : r.Short) :
    (record r.toolchain r.module r.key).any (usable loader r.key) =
      (made r.toolchain r.module r.key).any (opens loader r.module r.key) := by
  rw [record]
  cases hmade : made r.toolchain r.module r.key with
  | none => rfl
  | some library =>
    rw [Option.map_some, Option.any_some, Option.any_some]
    exact usable_encode hloader (hshort library hmade)

theorem Part.noted (e : Engine) (k : Key) : Part e (e.noted k) := by
  unfold Engine.noted
  split
  · exact .note e .debug none (by decide)
  · exact .refl e

theorem After.noted (h : e.Contents c) (k : Key) : After e (e.noted k) c 0 0 := by
  unfold Engine.noted
  split
  · exact .note h ..
  · exact .refl h

/-- The engine whose request for a key is under way. -/
def building (e : Engine) (k : Key) : Engine :=
  { e.noted k with modules := (e.noted k).modules.opened k }

theorem After.building (h : e.Contents c) (k : Key) :
    (e.building k).Contents c ∧ (e.building k).toolchainBuilds = e.toolchainBuilds ∧
      (e.building k).corruptEntries = e.corruptEntries ∧ e.refusals ≤ (e.building k).refusals := by
  have hnoted := After.noted h k
  exact ⟨hnoted.contents, hnoted.builds, hnoted.corrupt, (Part.noted e k).refusals⟩

theorem modules_noted (e : Engine) (k : Key) : (e.noted k).modules = e.modules := by
  have hkept : Kept (fun _ _ => True) e (e.noted k) := noted_kept e k
  exact hkept.modules

/-- A request is answered by what its build comes to, if there is nothing in memory. -/
theorem request_unready (t : Toolchain) (loader : Loader) (m : Module) (hquiet : e.modules.Quiet)
    (hready : e.modules.cache.ready.use? k = none) :
    ∃ raises result e', (e.building k).build ⟨t, loader⟩ m k =
        ({ raises, outcome := some result }, e') ∧
      e.request ⟨t, loader⟩ m k false = (if raises then .error .cancelled else result,
        { e' with modules :=
            e.modules.closed k raises (if raises then .error .cancelled else result) }) := by
  have hsame := modules_noted e k
  obtain ⟨raises, result, e', hbuild, hkept⟩ := exists_build_eq (e.building k) t loader m k
  refine ⟨raises, result, e', hbuild, ?_⟩
  have hrequest := request_built (hsame ▸ hquiet) (hsame ▸ hready) hbuild hkept
  rwa [hsame] at hrequest

/-- What becomes ready has something usable in the store. -/
theorem Tracks.closed (h : e.Tracks loader c) {c' : Stock} (hcontents : e'.Contents c')
    {outcome : Except Error Loaded} {raised : Bool}
    (hmore : ∀ j, stocked loader c j = true → stocked loader c' j = true)
    (hnew : outcome.isOk = true → stocked loader c' k = true) :
    Tracks loader { e' with modules := e.modules.closed k raised outcome } c' := by
  refine ⟨Flight.State.quiet_closed h.quiet k raised outcome, hcontents, fun j l hl => ?_⟩
  rw [Flight.State.ready_closed] at hl
  cases outcome with
  | error err => exact hmore j (h.ready j l hl)
  | ok v =>
    rcases Recency.peek_put hl with ⟨rfl, -⟩ | hl
    · exact hnew rfl
    · exact hmore j (h.ready j l hl)

/-- Nothing changes if no toolchain is asked. -/
theorem Served.of_unasked {answer : Except Error Loaded} (hasks : r.asks loader c = false)
    (htracks : e'.Tracks loader c) (hbuilds : e'.toolchainBuilds = e.toolchainBuilds)
    (hcorrupt : e'.corruptEntries = e.corruptEntries) (hanswer : answer.isOk = !r.raised) :
    Served loader e e' c r answer := by
  refine ⟨?_, ?_, ?_, ?_⟩
  · rw [Request.after, hasks]
    exact htracks
  · rw [hbuilds, hasks]
    rfl
  · rw [hcorrupt, hasks]
    rfl
  · rw [hanswer]
    cases hraised : r.raised with
    | true => rfl
    | false =>
      have hstocked : stocked loader c r.key = true := by simpa [Request.asks, hraised] using hasks
      rw [hstocked]
      rfl

section Request

variable (h : e.Tracks loader c)
include h

theorem Tracks.request_raised (hraised : r.raised = true) :
    Served loader e (e.request ⟨r.toolchain, loader⟩ r.module r.key true).2 c r
      (e.request ⟨r.toolchain, loader⟩ r.module r.key true).1 := by
  have hnoted := After.noted h.contents r.key
  rw [Engine.request_raised, Flight.State.ask_raised, modules_noted]
  refine .of_unasked (by simp [Request.asks, hraised]) ?_ hnoted.builds hnoted.corrupt ?_
  · exact ⟨⟨h.quiet.1, h.quiet.2⟩, hnoted.contents, h.ready⟩
  · rw [hraised]
    rfl

theorem Tracks.request_ready (hraised : r.raised = false) {v : Loaded} {ready : Recency Loaded}
    (huse : e.modules.cache.ready.use? r.key = some (v, ready)) :
    Served loader e (e.request ⟨r.toolchain, loader⟩ r.module r.key false).2 c r
      (e.request ⟨r.toolchain, loader⟩ r.module r.key false).1 := by
  have hnoted := After.noted h.contents r.key
  obtain ⟨hpeek, -⟩ := Recency.peek_use (j := r.key) huse
  have hstocked := h.ready r.key v hpeek
  rw [← modules_noted e r.key] at huse
  rw [request_hit huse, Flight.State.ask_hit huse]
  refine .of_unasked (by simp [Request.asks, hstocked]) ?_ hnoted.builds hnoted.corrupt ?_
  · rw [modules_noted] at huse ⊢
    exact ⟨⟨h.quiet.1, h.quiet.2⟩, hnoted.contents,
      fun j l hl => h.ready j l ((Recency.peek_use huse).2 ▸ hl)⟩
  · rw [hraised]
    rfl

theorem Tracks.request_stored (hraised : r.raised = false)
    (huse : e.modules.cache.ready.use? r.key = none) (hstocked : stocked loader c r.key = true)
    (hsmooth : (e.request ⟨r.toolchain, loader⟩ r.module r.key false).2.refusals ≤ e.refusals) :
    Served loader e (e.request ⟨r.toolchain, loader⟩ r.module r.key false).2 c r
      (e.request ⟨r.toolchain, loader⟩ r.module r.key false).1 := by
  obtain ⟨hcontents, hbuilds, hcorrupt, hrefusals⟩ := After.building h.contents r.key
  obtain ⟨raises, result, e', hbuild, hrequest⟩ :=
    request_unready r.toolchain loader r.module h.quiet huse
  rw [hrequest] at hsmooth ⊢
  obtain ⟨l, e₁, hbuild₁, hstep⟩ := build_stocked hcontents hstocked
    (by rw [hbuild]; exact Nat.le_trans hsmooth hrefusals)
  cases hbuild.symm.trans hbuild₁
  refine .of_unasked (by simp [Request.asks, hstocked]) ?_ ?_ ?_ ?_
  · exact h.closed hstep.contents (fun _ hj => hj) fun _ => hstocked
  · exact hstep.builds.trans hbuilds
  · exact hstep.corrupt.trans hcorrupt
  · rw [hraised]
    rfl

theorem Tracks.request_built (hloader : loader [] = none) (hshort : r.Short) (hraised : r.raised = false)
    (huse : e.modules.cache.ready.use? r.key = none) (hstocked : stocked loader c r.key = false)
    (hsmooth : (e.request ⟨r.toolchain, loader⟩ r.module r.key false).2.refusals ≤ e.refusals) :
    Served loader e (e.request ⟨r.toolchain, loader⟩ r.module r.key false).2 c r
      (e.request ⟨r.toolchain, loader⟩ r.module r.key false).1 := by
  have hasks : r.asks loader c = true := by simp [Request.asks, hstocked, hraised]
  obtain ⟨hcontents, hbuilds, hcorrupt, hrefusals⟩ := After.building h.contents r.key
  obtain ⟨raises, result, e', hbuild, hrequest⟩ :=
    request_unready r.toolchain loader r.module h.quiet huse
  rw [hrequest] at hsmooth ⊢
  obtain ⟨result₁, e₁, hbuild₁, hok, hstep⟩ := build_unstocked hcontents hstocked
    (by rw [hbuild]; exact Nat.le_trans hsmooth hrefusals)
  cases hbuild.symm.trans hbuild₁
  have hanswer : Except.isOk (if (r.toolchain.build r.module r.key).raises then .error Error.cancelled
      else result) = (!(r.toolchain.build r.module r.key).raises &&
        (made r.toolchain r.module r.key).any (opens loader r.module r.key)) := by
    rw [← hok]
    cases (r.toolchain.build r.module r.key).raises <;> rfl
  refine ⟨?_, ?_, ?_, ?_⟩
  · rw [Request.after, hasks]
    refine h.closed hstep.contents (fun j hj => ?_) fun hgiven => ?_
    · rw [stocked_update_of_ne]
      · exact hj
      · rintro rfl
        rw [hstocked] at hj
        cases hj
    · rw [hanswer, Bool.and_eq_true] at hgiven
      rw [stocked_update_self, usable_record hloader hshort]
      exact hgiven.2
  · rw [hasks, ← hbuilds]
    exact hstep.builds
  · rw [hasks, ← hcorrupt]
    exact hstep.corrupt
  · rw [hanswer, hraised, hstocked]
    rfl

/-- **A request asks the toolchain if and only if there is nothing usable under its key**, in memory or in
the store. -/
theorem Tracks.request (hloader : loader [] = none) (hshort : r.Short)
    (hsmooth : (e.request ⟨r.toolchain, loader⟩ r.module r.key r.raised).2.refusals ≤ e.refusals) :
    Served loader e (e.request ⟨r.toolchain, loader⟩ r.module r.key r.raised).2 c r
      (e.request ⟨r.toolchain, loader⟩ r.module r.key r.raised).1 := by
  cases hraised : r.raised with
  | true => exact h.request_raised hraised
  | false =>
    rw [hraised] at hsmooth
    cases huse : e.modules.cache.ready.use? r.key with
    | some found => exact h.request_ready hraised huse
    | none =>
      cases hstocked : stocked loader c r.key with
      | true => exact h.request_stored hraised huse hstocked hsmooth
      | false => exact h.request_built hloader hshort hraised huse hstocked hsmooth

end Request

/-! ## One call -/

theorem compile_of_request {raised : Bool} (hr : Request.of? t g raised = some r) :
    e.compile ⟨t, loader⟩ g raised = e.request ⟨r.toolchain, loader⟩ r.module r.key r.raised := by
  unfold Request.of? at hr
  split at hr
  · cases hr
  · next m hm =>
    split at hr
    · cases hr
    · next k hk =>
      cases hr
      simp only [Engine.compile, key, hm, hk]

theorem compile_of_none {raised : Bool} (hr : Request.of? t g raised = none) (e : Engine)
    (loader : Loader) : ∃ err, e.compile ⟨t, loader⟩ g raised = (.error err, e) := by
  unfold Request.of? at hr
  split at hr
  · next err herr => exact ⟨err, by simp only [Engine.compile, herr]⟩
  · next m hm =>
    split at hr
    · next err herr => exact ⟨err, by simp only [Engine.compile, key, hm, herr]⟩
    · cases hr

/-- After its compilation a run changes variables of modules only. -/
theorem exists_run_eq (e : Engine) (tools : Tools) (g : Graph) (inputs : List Buffer)
    (outputs : List (Option Buffer)) :
    ∃ units, (e.run tools g inputs outputs).2 = { (e.compile tools g false).2 with units } := by
  unfold run
  rcases e.compile tools g false with ⟨err | m, e'⟩
  · exact ⟨e'.units, rfl⟩
  · exact ⟨_, rfl⟩

theorem Tracks.units (h : e.Tracks loader c) (units : List Statics) :
    Tracks loader { e with units } c := ⟨h.quiet, h.contents, h.ready⟩

theorem Served.units {answer : Except Error Loaded} (h : Served loader e e' c r answer)
    (units : List Statics) : Served loader e { e' with units } c r answer :=
  ⟨h.tracks.units units, h.builds, h.corrupt, h.answer⟩

theorem Call.after_of_request (hr : call.request? = some r) : call.after loader c = r.after loader c := by
  cases call with
  | compile t g raised => rw [Call.after, show Request.of? t g raised = some r from hr, Option.elim_some]
  | run t g inputs outputs => rw [Call.after, show Request.of? t g false = some r from hr, Option.elim_some]
  | invalidate k => cases hr
  | clearMemory => cases hr
  | restart config => cases hr

/-- A call that makes a request does what the request does. -/
theorem Tracks.serve_request (h : e.Tracks loader c) (hloader : loader [] = none)
    (hr : call.request? = some r) (hshort : r.Short) (hsmooth : e.Smooth loader call) :
    ∃ answer, call.compiled? loader e = some answer ∧
      Served loader e (e.serve loader call) c r answer := by
  cases call with
  | compile t g raised =>
    have hsmooth' : (e.compile ⟨t, loader⟩ g raised).2.refusals ≤ e.refusals := Nat.le_of_eq hsmooth
    refine ⟨_, rfl, ?_⟩
    rw [compile_of_request hr] at hsmooth' ⊢
    rw [serve, compile_of_request hr]
    exact h.request hloader hshort hsmooth'
  | run t g inputs outputs =>
    obtain ⟨units, hrun⟩ := exists_run_eq e ⟨t, loader⟩ g inputs outputs
    have hsmooth' : (e.run ⟨t, loader⟩ g inputs outputs).2.refusals ≤ e.refusals := Nat.le_of_eq hsmooth
    rw [hrun, compile_of_request hr] at hsmooth'
    refine ⟨_, rfl, ?_⟩
    rw [serve, hrun, compile_of_request hr]
    exact (h.request hloader hshort hsmooth').units units
  | invalidate k => cases hr
  | clearMemory => cases hr
  | restart config => cases hr

/-- A call that makes no request counts nothing. -/
theorem Tracks.serve_other (h : e.Tracks loader c) (hr : call.request? = none)
    (hsmooth : e.Smooth loader call) :
    (e.serve loader call).Tracks loader (call.after loader c) ∧
      (e.serve loader call).corruptEntries ≤ e.corruptEntries := by
  cases call with
  | compile t g raised =>
    obtain ⟨err, hcompile⟩ := compile_of_none hr e loader
    rw [Engine.serve, hcompile, Call.after, show Request.of? t g raised = none from hr, Option.elim_none]
    exact ⟨h, Nat.le_refl _⟩
  | run t g inputs outputs =>
    obtain ⟨units, hrun⟩ := exists_run_eq e ⟨t, loader⟩ g inputs outputs
    obtain ⟨err, hcompile⟩ := compile_of_none hr e loader
    rw [Engine.serve, hrun, hcompile, Call.after, show Request.of? t g false = none from hr,
      Option.elim_none]
    exact ⟨h.units units, Nat.le_refl _⟩
  | invalidate k =>
    have hremoved := After.removeStored (e := { e with modules := e.modules.run [.invalidate k] })
      h.contents hsmooth
    refine ⟨⟨?_, hremoved.contents, ?_⟩, hremoved.corrupt.le⟩
    · rw [serve, invalidate, hremoved.modules]
      exact ⟨h.quiet.1, h.quiet.2⟩
    · rw [serve, invalidate, hremoved.modules]
      intro j l hl
      have hpeek : (e.modules.cache.ready.erase k).peek j = some l := hl
      rw [Recency.peek_erase] at hpeek
      split at hpeek
      · cases hpeek
      · next hj =>
        rw [Call.after, stocked_update_of_ne hj]
        exact h.ready j l hpeek
  | clearMemory => exact ⟨⟨⟨h.quiet.1, h.quiet.2⟩, h.contents, fun j l hl => (by cases hl)⟩, Nat.le_refl _⟩
  | restart config =>
    exact ⟨⟨Flight.State.quiet_empty _, h.contents, fun j l hl => (by cases hl)⟩, Nat.zero_le _⟩

/-- The requests of a call fit in memory. -/
def Call.Short (call : Call) : Prop := ∀ r, call.request? = some r → r.Short

@[simp]
theorem Call.short_invalidate (k : Key) : (Call.invalidate k).Short := fun r hr => (by cases hr)

@[simp]
theorem Call.short_clearMemory : Call.clearMemory.Short := fun r hr => (by cases hr)

@[simp]
theorem Call.short_restart (config : Config) : (Call.restart config).Short := fun r hr => (by cases hr)

theorem Tracks.serve (h : e.Tracks loader c) (hloader : loader [] = none) (hshort : call.Short)
    (hsmooth : e.Smooth loader call) : (e.serve loader call).Tracks loader (call.after loader c) := by
  cases hr : call.request? with
  | none => exact (h.serve_other hr hsmooth).1
  | some r =>
    obtain ⟨answer, -, hserved⟩ := h.serve_request hloader hr (hshort r hr) hsmooth
    rw [Call.after_of_request hr]
    exact hserved.tracks

/-! ## Histories -/

theorem serveAll_append (calls more : List Call) :
    e.serveAll loader (calls ++ more) = (e.serveAll loader calls).serveAll loader more :=
  List.foldl_append

theorem smoothAll_append {more : List Call} :
    e.SmoothAll loader (calls ++ more) ↔
      e.SmoothAll loader calls ∧ (e.serveAll loader calls).SmoothAll loader more := by
  induction calls generalizing e with
  | nil => exact ⟨fun h => ⟨trivial, h⟩, fun h => h.2⟩
  | cons call calls ih =>
    rw [List.cons_append, SmoothAll, SmoothAll, ih, and_assoc]
    rfl

/-- What a store has after calls. -/
def stockAfter (loader : Loader) (c : Stock) (calls : List Call) : Stock :=
  calls.foldl (Call.after loader) c

/-- What the store has is known in every history. -/
theorem Tracks.serveAll (h : e.Tracks loader c) (hloader : loader [] = none)
    (hshort : ∀ call ∈ calls, call.Short) (hsmooth : e.SmoothAll loader calls) :
    (e.serveAll loader calls).Tracks loader (stockAfter loader c calls) := by
  induction calls generalizing e c with
  | nil => exact h
  | cons call calls ih =>
    rw [List.forall_mem_cons] at hshort
    exact ih (h.serve hloader hshort.1 hsmooth.1) hshort.2 hsmooth.2

/-- A new engine knows nothing but what its store has. -/
theorem tracks_start {config : Config} {s : Store} {files : Files}
    (hstart : Engine.start config (some s) files = .ok e) (hstore : s.Contents files c) :
    e.Tracks loader c := by
  unfold Engine.start at hstart
  split at hstart
  · cases hstart
    exact ⟨Flight.State.quiet_empty _, ⟨s, rfl, hstore⟩, fun k l hl => (by cases hl)⟩
  · cases hstart

/-! ## Stores in memory -/

theorem Part.request (e : Engine) (t : Toolchain) (loader : Loader) (m : Module) (k : Key)
    (raised : Bool) : Part e (e.request ⟨t, loader⟩ m k raised).2 := by
  have hmodules : ∀ (e : Engine) (modules : Flight.State Loaded), Part e { e with modules } :=
    fun e modules => .of_eq rfl rfl rfl
  have hasked := (Part.noted e k).trans (hmodules _ ((e.noted k).modules.ask k raised).2)
  unfold Engine.request
  rw [← Engine.noted]
  dsimp only
  split
  · exact (hasked.trans (.build ..)).trans (hmodules _ _)
  · exact hasked

theorem Part.compile (e : Engine) (t : Toolchain) (loader : Loader) (g : Graph) (raised : Bool) :
    Part e (e.compile ⟨t, loader⟩ g raised).2 := by
  cases hr : Request.of? t g raised with
  | none =>
    obtain ⟨err, hcompile⟩ := compile_of_none hr e loader
    rw [hcompile]
    exact .refl e
  | some r =>
    rw [compile_of_request hr]
    exact .request ..

/-- **A store in memory that refuses nothing refuses nothing in any history.** -/
theorem Sound.smoothAll (h : e.Sound) (loader : Loader) (calls : List Call) :
    e.SmoothAll loader calls := by
  have hcall : ∀ {e : Engine}, e.Sound → ∀ call,
      e.Smooth loader call ∧ (e.serve loader call).Sound := by
    intro e h call
    cases call with
    | compile t g raised => exact ((Part.compile e t loader g raised).sound h).symm
    | run t g inputs outputs =>
      obtain ⟨units, hrun⟩ := exists_run_eq e ⟨t, loader⟩ g inputs outputs
      rw [Smooth, serve, hrun]
      exact ((Part.compile e t loader g false).sound h).symm
    | invalidate k =>
      obtain ⟨hpart, hok⟩ := Part.removeStored { e with modules := e.modules.run [.invalidate k] } k
      exact ⟨Outcome.isOk_iff.2 (hok h), (hpart.sound h).1⟩
    | clearMemory => exact ⟨trivial, h⟩
    | restart config => exact ⟨trivial, h⟩
  induction calls generalizing e with
  | nil => trivial
  | cons call calls ih => exact ⟨(hcall h call).1, ih (hcall h call).2⟩

end OpFusion.Engine
