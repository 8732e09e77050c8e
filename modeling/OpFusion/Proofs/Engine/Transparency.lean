/-
  What is kept in memory and in a store does not change what a request gives.

  In every state that operations lead to, the modules in memory and in the store are those that their own
  compilation makes (`Faithful`). Modules of one key have one manifest and one text, so a request gives
  what a new engine without a store would give (`compile_eq_fresh`), although it may be answered with
  what was made for another graph.
-/
import OpFusion.Proofs.Cache.Sequential
import OpFusion.Proofs.Engine.Building
import OpFusion.Proofs.Module.Determined
import OpFusion.Proofs.Module.Plain
import OpFusion.Proofs.Store.Record

namespace OpFusion

namespace Engine

/-! ## Operations -/

/-- What is done with an engine and its successors. -/
inductive Operation where
  | compile (g : Graph) (raised : Bool)
  | invalidate (k : Key)
  | clearMemory
  /-- A new engine on the same files and store. -/
  | restart (config : Config)
  /-- From now on some operations of the store are refused. -/
  | refuse (faults : StoreFaults)

/-- The engine after an operation. -/
def perform (tools : Tools) (e : Engine) : Operation → Engine
  | .compile g raised => (e.compile tools g raised).2
  | .invalidate k => (e.invalidate k).2
  | .clearMemory => e.clearMemory
  | .restart config => { e with config }.restart
  | .refuse faults => { e with faults }

/-- The engine after operations. -/
def performAll (tools : Tools) (e : Engine) (ops : List Operation) : Engine :=
  ops.foldl (perform tools) e

/-! ## Assumptions -/

/-- A module of a graph in use. -/
def Assembled (graphs : List Graph) (m : Module) : Prop := ∃ g ∈ graphs, Assembly.assemble g = .ok m

/-- What is known of the tools and of the graphs in use. -/
structure Setting (tools : Tools) (graphs : List Graph) : Prop where
  /-- What a job comes to depends on the text and the requirements of the module alone. -/
  deterministic : ∀ m m' k, Assembled graphs m → Assembled graphs m' → m.source = m'.source →
    m.link = m'.link → (tools.toolchain.build m k).result = (tools.toolchain.build m' k).result
  /-- Jobs do not raise tokens. -/
  quiet : ∀ m k, Assembled graphs m → (tools.toolchain.build m k).raises = false
  /-- Libraries fit in memory. -/
  short : ∀ m k library, Assembled graphs m →
    (tools.toolchain.build m k).result = .ok (some library) → Wire.Short library
  /-- Manifests fit in memory. -/
  fits : ∀ m t, Assembled graphs m → tools.toolchain.identity = .ok t → Manifest.Fits m t
  /-- Digests of different inputs differ. -/
  collisionFree : ∀ m m' t, Assembled graphs m → Assembled graphs m' →
    tools.toolchain.identity = .ok t → m.key t = m'.key t →
    Manifest.material m t = Manifest.material m' t
  /-- Kinds that have a version write the same if their names, parameters and versions are the same. -/
  honest : ∀ g ∈ graphs, ∀ g' ∈ graphs, ∀ a ∈ g.applications, ∀ a' ∈ g'.applications,
    a.kind.name = a'.kind.name → a.kind.params = a'.kind.params → a.kind.version = a'.kind.version →
    (∃ part parts, a.kind.version = some (part :: parts)) → a.kind.SameFragments a'.kind

variable {tools : Tools} {graphs : List Graph} {g g' : Graph} {m m' : Module} {k : Key} {e : Engine}

/-- A module of a graph in use, with its key. -/
def Used (tools : Tools) (graphs : List Graph) (k : Key) (m : Module) : Prop :=
  Assembled graphs m ∧ key tools m = .ok k

theorem key_eq_ok (h : key tools m = .ok k) :
    ∃ t, tools.toolchain.identity = .ok t ∧ k = m.key t := by
  obtain ⟨t, ht, hk⟩ := Outcome.map_eq_ok.1 h
  exact ⟨t, ht, hk.symm⟩

/-- The kinds of a module whose signatures all have versions. -/
theorem version_of_isVersioned (hm : Assembly.assemble g = .ok m) (hversioned : m.isVersioned = true)
    {a : Application} (ha : a ∈ g.applications) : ∃ part parts, a.kind.version = some (part :: parts) := by
  obtain ⟨i, hi⟩ := Assembly.mem_signaturesFrom ha 0
  rw [← Assembly.applications_eq hm] at hi
  have hsignature := List.all_eq_true.1 hversioned _ hi
  unfold Signature.isVersioned at hsignature
  split at hsignature
  · next part parts hversion => exact ⟨part, parts, hversion⟩
  · cases hsignature

/-- **Modules of one key have one manifest and one text.** -/
theorem Setting.same (h : Setting tools graphs) (hm : Used tools graphs k m)
    (hm' : Used tools graphs k m') : m.Agrees m' ∧ m.source = m'.source := by
  obtain ⟨hm, hkey⟩ := hm
  obtain ⟨hm', hkey'⟩ := hm'
  obtain ⟨t, ht, rfl⟩ := key_eq_ok hkey
  obtain ⟨t', ht', hkeys⟩ := key_eq_ok hkey'
  rw [ht] at ht'
  cases ht'
  have hmaterial := h.collisionFree m m' t hm hm' ht hkeys
  have hfits := h.fits m t hm ht
  have hfits' := h.fits m' t hm' ht
  obtain ⟨-, hagrees, hsource⟩ :=
    Manifest.material_inj hfits.module hfits.identity hfits'.module hfits'.identity hmaterial
  obtain ⟨g, hg, hassemble⟩ := hm
  obtain ⟨g', hg', hassemble'⟩ := hm'
  refine ⟨hagrees, ?_⟩
  cases hversioned : m.isVersioned with
  | false => exact hsource hversioned
  | true =>
    refine Assembly.source_eq hassemble hassemble' hagrees fun a ha a' ha' hname hparams hversion => ?_
    exact h.honest g hg g' hg' a ha a' ha' hname hparams hversion
      (version_of_isVersioned hassemble hversioned ha)

/-- What is made of a module is what is made of any module of its key. -/
theorem Setting.made (h : Setting tools graphs) (hm : Used tools graphs k m)
    (hm' : Used tools graphs k m') :
    (tools.toolchain.build m k).result = (tools.toolchain.build m' k).result ∧
      ∀ library, m.artifact k library = m'.artifact k library := by
  obtain ⟨hagrees, hsource⟩ := h.same hm hm'
  refine ⟨h.deterministic m m' k hm.1 hm'.1 hsource hagrees.link, fun library => ?_⟩
  obtain ⟨⟨g, -, hassemble⟩, -⟩ := hm
  obtain ⟨⟨g', -, hassemble'⟩, -⟩ := hm'
  rw [Module.artifact, Module.artifact, Assembly.hasInit_eq hassemble, Assembly.hasInit_eq hassemble',
    hagrees.link, hagrees.reentrant]

theorem Setting.scratch_eq (h : Setting tools graphs) (hm : Used tools graphs k m)
    (hm' : Used tools graphs k m') {l : Loaded} (hl : scratch tools m k = .ok l) :
    scratch tools m' k = .ok l := by
  obtain ⟨hresult, hartifact⟩ := h.made hm hm'
  obtain ⟨hagrees, -⟩ := h.same hm hm'
  rw [scratch, hresult] at hl
  rw [scratch]
  split at hl
  · cases hl
  · cases hl
  · next library hlibrary =>
    rw [← hartifact, ← hl, opened, opened, Module.inputDescs, Module.inputDescs, Module.outputDescs,
      Module.outputDescs, hagrees.inputs, hagrees.outputs]

/-! ## What is kept -/

/-- The record of what is made under a key. -/
def Good (tools : Tools) (graphs : List Graph) (k : Key) (bytes : List UInt8) : Prop :=
  ∃ m library, Used tools graphs k m ∧ (tools.toolchain.build m k).result = .ok (some library) ∧
    bytes = (m.artifact k library).encode

/-- All that is kept is what its own compilation makes, and no request is under way. -/
structure Faithful (tools : Tools) (graphs : List Graph) (e : Engine) : Prop where
  quiet : e.modules.Quiet
  ready : ∀ k l, e.modules.cache.ready.peek k = some l →
    ∃ m, Used tools graphs k m ∧ scratch tools m k = .ok l.unnumbered
  store : e.StoreHolds (Good tools graphs)

/-- A build comes to the same as one from scratch. -/
theorem Setting.build_eq (h : Setting tools graphs) (hm : Used tools graphs k m)
    (hstore : e.StoreHolds (Good tools graphs)) :
    ∃ result e', e.build tools m k = ({ outcome := some result }, e') ∧
      result.map Loaded.unnumbered = scratch tools m k ∧ Kept (Good tools graphs) e e' := by
  refine Engine.build_eq hstore (h.quiet m k hm.1) (fun library hlibrary => ⟨m, library, hm, hlibrary, rfl⟩) ?_
  rintro bytes a ⟨m', library, hm', hlibrary, rfl⟩ hdecode
  obtain ⟨hresult, hartifact⟩ := h.made hm' hm
  rw [Module.artifact, Artifact.decode_encode k _ _ (h.short m' k library hm'.1 hlibrary)] at hdecode
  split at hdecode
  · cases hdecode
  · cases hdecode
    exact ⟨library, hresult ▸ hlibrary, hartifact library⟩

/-! ## Requests -/

/-- The engine with a hit on record, if there is one. -/
def noted (e : Engine) (k : Key) : Engine :=
  if e.modules.cache.ready.contains k then e.note .debug "module cache hit" else e

theorem noted_kept {good : Key → List UInt8 → Prop} (e : Engine) (k : Key) :
    Kept good e (e.noted k) := by
  unfold noted
  split
  · exact note_kept ..
  · exact .refl good e

theorem request_raised (e : Engine) (tools : Tools) (m : Module) (k : Key) :
    e.request tools m k true = (.error .cancelled,
      { e.noted k with modules := ((e.noted k).modules.ask k true).2 }) := by
  unfold request
  rw [← noted]
  simp only [Flight.State.ask_raised]
  simp [Flight.State.asked, Flight.State.answer, Flight.Phase.asked]

theorem request_hit {v : Loaded} {ready : Recency Loaded}
    (h : (e.noted k).modules.cache.ready.use? k = some (v, ready)) :
    e.request tools m k false = (.ok v,
      { e.noted k with modules := ((e.noted k).modules.ask k false).2 }) := by
  unfold request
  rw [← noted]
  simp only [Flight.State.ask_hit h]
  simp [Flight.State.asked, Flight.State.answer, Flight.Phase.asked]

/-- The outcome of a build is the answer, unless the token was raised meanwhile. -/
theorem request_built (hquiet : (e.noted k).modules.Quiet)
    (h : (e.noted k).modules.cache.ready.use? k = none) {raises : Bool} {result : Except Error Loaded}
    {e' : Engine}
    (hbuild : ({ e.noted k with modules := (e.noted k).modules.opened k } : Engine).build tools m k =
      ({ raises, outcome := some result }, e')) (hkept : e'.modules = (e.noted k).modules.opened k) :
    e.request tools m k false =
      (if raises then .error .cancelled else result,
        { e' with modules :=
            (e.noted k).modules.closed k raises (if raises then .error .cancelled else result) }) := by
  have hflight : (e.noted k).modules.cache.inflight.lookup k = none := by
    rw [hquiet.inflight]
    rfl
  have hreply := Flight.State.reply_opened hquiet k raises result
  unfold request
  rw [← noted]
  simp only [Flight.State.ask_miss hquiet.next hflight h, Flight.State.asked_opened, hbuild, hkept, hreply,
    Flight.State.answer_closed]

theorem request_miss (hquiet : (e.noted k).modules.Quiet)
    (h : (e.noted k).modules.cache.ready.use? k = none) {result : Except Error Loaded} {e' : Engine}
    (hbuild : ({ e.noted k with modules := (e.noted k).modules.opened k } : Engine).build tools m k =
      ({ outcome := some result }, e')) (hkept : e'.modules = (e.noted k).modules.opened k) :
    e.request tools m k false =
      (result, { e' with modules := (e.noted k).modules.closed k false result }) :=
  request_built hquiet h hbuild hkept

theorem Faithful.noted (h : e.Faithful tools graphs) (k : Key) : (e.noted k).Faithful tools graphs := by
  have hkept : Kept (Good tools graphs) e (e.noted k) := noted_kept e k
  refine ⟨?_, ?_, hkept.store h.store⟩
  · rw [hkept.modules]
    exact h.quiet
  · rw [hkept.modules]
    exact h.ready

/-- **A request gives what building from scratch gives**, and keeps only that. -/
theorem Faithful.request (hf : e.Faithful tools graphs) (h : Setting tools graphs)
    (hm : Used tools graphs k m) (raised : Bool) :
    (e.request tools m k raised).1.map Loaded.unnumbered =
        (if raised then .error .cancelled else scratch tools m k) ∧
      (e.request tools m k raised).2.Faithful tools graphs := by
  have hnoted := hf.noted k
  cases raised with
  | true =>
    rw [request_raised, Flight.State.ask_raised]
    exact ⟨rfl, ⟨hnoted.quiet.1, hnoted.quiet.2⟩, hnoted.ready, hnoted.store⟩
  | false =>
    rw [if_neg (by simp)]
    cases huse : (e.noted k).modules.cache.ready.use? k with
    | some found =>
      obtain ⟨v, ready⟩ := found
      obtain ⟨hpeek, -⟩ := Recency.peek_use (j := k) huse
      obtain ⟨m', hm', hv⟩ := hnoted.ready k v hpeek
      rw [request_hit huse, Flight.State.ask_hit huse]
      refine ⟨(h.scratch_eq hm' hm hv).symm, ⟨hnoted.quiet.1, hnoted.quiet.2⟩, fun j l hl => ?_,
        hnoted.store⟩
      exact hnoted.ready j l ((Recency.peek_use huse).2 ▸ hl)
    | none =>
      obtain ⟨result, e', hbuild, hresult, hkept⟩ := h.build_eq hm
        (e := { e.noted k with modules := (e.noted k).modules.opened k }) hnoted.store
      rw [request_miss hnoted.quiet huse hbuild hkept.modules]
      refine ⟨hresult, Flight.State.quiet_closed hnoted.quiet k false result, fun j l hl => ?_,
        hkept.store hnoted.store⟩
      rw [Flight.State.ready_closed] at hl
      cases result with
      | error err => exact hnoted.ready j l hl
      | ok v =>
        rcases Recency.peek_put hl with ⟨rfl, rfl⟩ | hl
        · exact ⟨m, hm, hresult.symm⟩
        · exact hnoted.ready j l hl

/-- What a request for a graph gives if nothing was ever kept. -/
def answer (tools : Tools) (g : Graph) (raised : Bool) : Except Error Loaded := do
  let m ← Assembly.assemble g
  let k ← key tools m
  if raised then .error .cancelled else scratch tools m k

theorem Faithful.compile (hf : e.Faithful tools graphs) (h : Setting tools graphs) (hg : g ∈ graphs)
    (raised : Bool) :
    (e.compile tools g raised).1.map Loaded.unnumbered = answer tools g raised ∧
      (e.compile tools g raised).2.Faithful tools graphs := by
  unfold Engine.compile
  cases hassemble : Assembly.assemble g with
  | error err =>
    refine ⟨?_, hf⟩
    simp [answer, hassemble, bind, Except.bind, Except.map]
  | ok m =>
    dsimp only
    cases hkey : key tools m with
    | error err =>
      refine ⟨?_, hf⟩
      simp [answer, hassemble, hkey, bind, Except.bind, Except.map]
    | ok k =>
      have hrequest := hf.request h ⟨⟨g, hg, hassemble⟩, hkey⟩ raised
      refine ⟨hrequest.1.trans ?_, hrequest.2⟩
      simp [answer, hassemble, hkey, bind, Except.bind]

/-! ## Histories -/

/-- A store that nobody has written to. -/
def Unwritten (files : Files) : Store → Prop
  | .memory s => s.entries = []
  | .disk _ => ∀ l content executable k, files.node? l = some (.file content executable) →
      l.names.getLast? ≠ some (DiskStore.fileName k)

theorem faithful_start {store : Option Store} {files : Files}
    (hstore : ∀ s, store = some s → Unwritten files s) (config : Config) :
    (restart { config, store, files }).Faithful tools graphs := by
  refine ⟨Flight.State.quiet_empty _, fun k l hl => ?_, fun s hs => ?_⟩
  · cases hl
  · have hunwritten := hstore s hs
    cases s with
    | memory s =>
      intro k bytes hread
      have hentries : s.entries = [] := hunwritten
      rw [MemoryStore.read, hentries] at hread
      cases hread
    | disk d =>
      intro l content executable hnode name hname k hk
      exact absurd (hk ▸ hname) (hunwritten l content executable k hnode)

theorem Faithful.perform (hf : e.Faithful tools graphs) (h : Setting tools graphs) (op : Operation)
    (hop : ∀ g raised, op = .compile g raised → g ∈ graphs) :
    (e.perform tools op).Faithful tools graphs := by
  cases op with
  | compile g raised => exact (hf.compile h (hop g raised rfl) raised).2
  | invalidate k =>
    have hkept : Kept (Good tools graphs) _ (e.invalidate k).2 := removeStored_kept _ k
    refine ⟨?_, ?_, hkept.store hf.store⟩
    · rw [Engine.perform, hkept.modules]
      exact ⟨hf.quiet.1, hf.quiet.2⟩
    · rw [Engine.perform, hkept.modules]
      intro j l hl
      have hpeek : (e.modules.cache.ready.erase k).peek j = some l := hl
      rw [Recency.peek_erase] at hpeek
      split at hpeek
      · cases hpeek
      · exact hf.ready j l hpeek
  | clearMemory => exact ⟨⟨hf.quiet.1, hf.quiet.2⟩, fun k l hl => (by cases hl), hf.store⟩
  | restart config => exact ⟨Flight.State.quiet_empty _, fun k l hl => (by cases hl), hf.store⟩
  | refuse faults => exact ⟨hf.quiet, hf.ready, hf.store⟩

theorem Faithful.performAll {ops : List Operation} (hf : e.Faithful tools graphs)
    (h : Setting tools graphs) (hops : ∀ g raised, .compile g raised ∈ ops → g ∈ graphs) :
    (e.performAll tools ops).Faithful tools graphs := by
  induction ops generalizing e with
  | nil => exact hf
  | cons op ops ih =>
    refine ih (hf.perform h op fun g raised hop => hops g raised (by simp [hop])) ?_
    exact fun g raised hmem => hops g raised (by simp [hmem])

/-- **Memory and store are transparent.** After any operations of engines on one store, each of whose
reads, writes and removals may be refused, a request gives what it gives a new engine without a store:
the same error, or a module of the same key, inputs, outputs, artifact and code. -/
theorem compile_eq_fresh (h : Setting tools graphs) {store : Option Store} {files : Files}
    (hstore : ∀ s, store = some s → Unwritten files s) (config : Config) {ops : List Operation}
    (hops : ∀ g raised, .compile g raised ∈ ops → g ∈ graphs) (hg : g ∈ graphs) (raised : Bool)
    (config' : Config) (files' : Files) :
    ((performAll tools (restart { config, store, files }) ops).compile tools g raised).1.map
        Loaded.unnumbered =
      ((restart { config := config', files := files' }).compile tools g raised).1.map
        Loaded.unnumbered := by
  have hfaithful := (faithful_start hstore config).performAll h hops
  have hfresh : (restart { config := config', files := files' }).Faithful tools graphs :=
    faithful_start (fun s hs => (by cases hs)) config'
  exact (hfaithful.compile h hg raised).1.trans (hfresh.compile h hg raised).1.symm

/-- The sum of a vector, under a name. -/
def sumNamed (name : String) : Graph where
  name
  vars := [⟨.i64, 1⟩, ⟨.i64, 0⟩]
  applications := [⟨Library.reduceSum .i64, [0], [1]⟩]
  inputs := [0]
  outputs := [1]

/-- Tools that make of a text its digest, and find in it a function that does nothing. -/
def digestTools : Tools where
  toolchain :=
    { identity := .ok ⟨"cc", "14.2.0", ["-O2"]⟩
      build := fun m _ => { result := .ok (some (Blake3.digest (Utf8.bytesOf m.source))) } }
  loader := fun _ => some ⟨some 1, true, false, none⟩

theorem setting_sum : Setting digestTools [sumNamed "total", sumNamed "sum"] := by
  have hmodule : ∀ m, Assembled [sumNamed "total", sumNamed "sum"] m →
      Assembly.assemble (sumNamed "total") = .ok m := by
    rintro m ⟨g, hg, hm⟩
    simp only [List.mem_cons, List.not_mem_nil, or_false] at hg
    rcases hg with rfl | rfl
    · exact hm
    · exact hm
  have hsame : ∀ m m', Assembled [sumNamed "total", sumNamed "sum"] m →
      Assembled [sumNamed "total", sumNamed "sum"] m' → m = m' := fun m m' hm hm' =>
    Except.ok.inj ((hmodule m hm).symm.trans (hmodule m' hm'))
  refine ⟨fun m m' k hm hm' _ _ => by rw [hsame m m' hm hm'], fun _ _ _ => rfl,
    fun m k library _ hlibrary => ?_, fun m t hm ht => ?_,
    fun m m' t hm hm' _ _ => by rw [hsame m m' hm hm'], ?_⟩
  · cases hlibrary
    rw [Wire.Short, Blake3.length_digest]
    decide
  · cases ht
    have hencoded : ((Assembly.collect (sumNamed "total")).toOption.any fun p =>
        decide ((Manifest.encode ⟨"", ⟨"", "", "", "", ""⟩, p.link, [⟨0, .i64, 1⟩], [⟨1, .i64, 0⟩],
          p.signatures, p.reentrant, false, [], 0⟩ ⟨"cc", "14.2.0", ["-O2"]⟩).length < 2 ^ 64)) = true := by
      decide +kernel
    have happs := Assembly.applications_eq (hmodule m hm)
    obtain ⟨p, q, hp, -, rfl⟩ := Assembly.assemble_eq_ok (hmodule m hm)
    rw [hp] at hencoded
    replace hencoded := of_decide_eq_true hencoded
    have hbinding : ∀ b ∈ [⟨0, ⟨.i64, 1⟩⟩, (⟨1, ⟨.i64, 0⟩⟩ : Binding)], b.Fits := by
      simp only [List.forall_mem_cons, List.not_mem_nil, false_implies, implies_true, and_true]
      exact ⟨⟨by decide, by decide⟩, ⟨by decide, by decide⟩⟩
    refine ⟨hencoded, hbinding, fun s hs => ?_⟩
    rw [happs] at hs
    cases List.mem_singleton.1 hs
    exact hbinding
  · have happ : ∀ g ∈ [sumNamed "total", sumNamed "sum"], ∀ a ∈ g.applications,
        a = ⟨Library.reduceSum .i64, [0], [1]⟩ := by
      intro g hg a ha
      simp only [List.mem_cons, List.not_mem_nil, or_false] at hg
      rcases hg with rfl | rfl
      · exact List.mem_singleton.1 ha
      · exact List.mem_singleton.1 ha
    intro g hg g' hg' a ha a' ha' _ _ _ _
    rw [happ g hg a ha, happ g' hg' a' ha']
    exact ⟨rfl, fun _ => rfl, fun _ _ => rfl, fun _ => rfl⟩

/-- A sum that is compiled, forgotten in memory and asked for under another name, first of a store that
cannot be read and then of one that can, is what a new engine makes of it. -/
theorem compile_sum_eq_fresh :
    (∃ m, Assembly.assemble (sumNamed "sum") = .ok m) ∧
    ((performAll digestTools (restart { config := .standard "/tmp", store := some (.memory {}) })
        [.compile (sumNamed "total") false, .clearMemory, .refuse { read := true },
          .compile (sumNamed "sum") true, .compile (sumNamed "sum") false,
          .restart (.standard "/var"), .refuse {}]).compile digestTools (sumNamed "sum") false).1.map
        Loaded.unnumbered =
      ((restart { config := .standard "/opt" }).compile digestTools (sumNamed "sum") false).1.map
        Loaded.unnumbered := by
  refine ⟨?_, compile_eq_fresh setting_sum ?_ _ ?_ (by simp) false _ _⟩
  · refine Assembly.assemble_of_collect (fun a ha => ⟨.reduceSum .i64, ?_⟩) (by decide +kernel)
    rw [List.mem_singleton.1 ha]
    rfl
  · intro s hs
    cases hs
    rfl
  · simp

end Engine

end OpFusion
