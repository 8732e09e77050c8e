/-
  What the store of an engine has, through a build.

  A part of a build that the store refuses something is on record (`refusals`), and a store in memory
  refuses nothing (`Part`). As long as nothing is refused, what the store has under each key is known
  (`After`): a usable record is loaded and stays, and otherwise the toolchain is asked, and what it makes is
  on record instead of what was there (`build_stocked`, `build_unstocked`).
-/
import OpFusion.Proofs.Engine.Building
import OpFusion.Proofs.Store.Mapping
import OpFusion.Proofs.Store.Record

namespace OpFusion.Engine

/-- What a store has under each key. -/
abbrev Stock : Type := Key → Option (List UInt8)

/-- There is a store, and it has what a map gives each key. -/
def Contents (e : Engine) (c : Stock) : Prop := ∃ s, e.store = some s ∧ s.Contents e.files c

/-- Whether a module can be loaded from bytes that are stored under its key. -/
def usable (loader : Loader) (k : Key) (bytes : List UInt8) : Bool :=
  match Artifact.decode k bytes with
  | .error _ => false
  | .ok a => a.entry = Module.entrySymbol && (Loaded.openArtifact loader a).isOk

/-- Whether there is something usable under a key. -/
def stocked (loader : Loader) (c : Stock) (k : Key) : Bool := (c k).any (usable loader k)

variable {e e' e'' : Engine} {loader : Loader} {t : Toolchain} {m : Module} {k : Key} {c c' c'' : Stock}
  {bytes : List UInt8} {a : Artifact}

/-! ## Refused operations -/

/-- What is reported if the store refuses an operation. -/
def refusalMessages : List String :=
  ["artifact store read failed", "failed to persist compiled module",
    "failed to remove corrupt cache entry"]

/-- The number of operations that the store refused during builds. -/
def refusals (e : Engine) : Nat := e.events.countP fun event => event.message ∈ refusalMessages

theorem refusals_note (e : Engine) (level : Level) (message : String) (detail : Option String) :
    (e.note level message detail).refusals =
      e.refusals + if message ∈ refusalMessages then 1 else 0 := by
  by_cases h : message ∈ refusalMessages <;> simp [refusals, note, h]

/-- A store in memory, none of whose operations is refused. -/
def Sound (e : Engine) : Prop := e.faults = {} ∧ ∃ s, e.store = some (.memory s)

/-- What holds of every part of a build: what is on record stays, and a sound store refuses nothing. -/
structure Part (e e' : Engine) : Prop where
  refusals : e.refusals ≤ e'.refusals
  sound : e.Sound → e'.Sound ∧ e'.refusals = e.refusals

namespace Part

theorem refl (e : Engine) : Part e e := ⟨Nat.le_refl _, fun h => ⟨h, rfl⟩⟩

theorem trans (h : Part e e') (h' : Part e' e'') : Part e e'' := by
  refine ⟨h.refusals.trans h'.refusals, fun hsound => ?_⟩
  obtain ⟨hsound', hsame⟩ := h.sound hsound
  exact ⟨(h'.sound hsound').1, (h'.sound hsound').2.trans hsame⟩

theorem of_eq (hstore : e'.store = e.store) (hfaults : e'.faults = e.faults)
    (hevents : e'.events = e.events) : Part e e' := by
  have hsame : e'.refusals = e.refusals := by rw [Engine.refusals, hevents, Engine.refusals]
  refine ⟨hsame.ge, fun hsound => ⟨?_, hsame⟩⟩
  rw [Sound, hfaults, hstore]
  exact hsound

theorem note_refused (hunsound : ¬ e.Sound) (level : Level) (message : String) (detail : Option String) :
    Part e (e.note level message detail) := by
  refine ⟨?_, fun hsound => absurd hsound hunsound⟩
  rw [refusals_note]
  exact Nat.le_add_right ..

theorem note (e : Engine) (level : Level) {message : String} (detail : Option String)
    (h : message ∉ refusalMessages) : Part e (e.note level message detail) := by
  have hsame : (e.note level message detail).refusals = e.refusals := by
    rw [refusals_note, if_neg h, Nat.add_zero]
  exact ⟨hsame.ge, fun hsound => ⟨hsound, hsame⟩⟩

theorem setStore {s s' : Store} (hs : e.store = some s)
    (hmemory : ∀ x, s = .memory x → ∃ y, s' = .memory y) (files : Files) :
    Part e { e with store := some s', files } := by
  refine ⟨Nat.le_refl _, ?_⟩
  rintro ⟨hfaults, x, hx⟩
  rw [hs] at hx
  obtain ⟨y, rfl⟩ := hmemory x (Option.some.inj hx)
  exact ⟨⟨hfaults, y, rfl⟩, rfl⟩

theorem removeStored (e : Engine) (k : Key) :
    Part e (e.removeStored k).2 ∧ (e.Sound → ∃ u, (e.removeStored k).1 = .ok u) := by
  unfold Engine.removeStored
  split
  · exact ⟨refl e, fun _ => ⟨(), rfl⟩⟩
  next s hs =>
  split
  · next hfault => exact ⟨refl e, fun hsound => (by rw [hsound.1] at hfault; cases hfault)⟩
  · refine ⟨setStore hs ?_ _, ?_⟩
    · rintro x rfl
      exact ⟨_, rfl⟩
    · rintro ⟨-, x, hx⟩
      rw [hs] at hx
      cases hx
      exact ⟨(), rfl⟩

theorem writeStore (e : Engine) (k : Key) (bytes : List UInt8) :
    Part e (e.writeStore k bytes).2 ∧ (e.Sound → ∃ u, (e.writeStore k bytes).1 = .ok u) := by
  unfold Engine.writeStore
  split
  · exact ⟨refl e, fun _ => ⟨(), rfl⟩⟩
  next s hs =>
  split
  · next hfault => exact ⟨refl e, fun hsound => (by rw [hsound.1] at hfault; cases hfault)⟩
  · refine ⟨setStore hs ?_ _, ?_⟩
    · rintro x rfl
      exact ⟨_, rfl⟩
    · rintro ⟨-, x, hx⟩
      rw [hs] at hx
      cases hx
      exact ⟨(), rfl⟩

theorem load (e : Engine) (loader : Loader) (m : Module) (k : Key) (a : Artifact) :
    Part e (e.load loader m k a).2 := by
  unfold Engine.load
  split
  · exact refl e
  · exact of_eq rfl rfl rfl

theorem loadBytes (e : Engine) (loader : Loader) (m : Module) (k : Key) (bytes : List UInt8) :
    Part e (e.loadBytes loader m k bytes).2 := by
  unfold Engine.loadBytes
  split
  · exact refl e
  · split
    · exact refl e
    · exact load e loader m k _

theorem discard (e : Engine) (k : Key) (reason : Error) : Part e (e.discard k reason) := by
  unfold Engine.discard
  set e₁ := { e with corruptEntries := e.corruptEntries + 1 }.note .warn "discarding corrupt cache entry"
    (some reason.message)
  have hcounted : Part e { e with corruptEntries := e.corruptEntries + 1 } := of_eq rfl rfl rfl
  have hnoted : Part e e₁ := hcounted.trans (note _ .warn _ (by decide))
  obtain ⟨hremoved, hok⟩ := removeStored e₁ k
  dsimp only
  split
  · next u e₂ heq =>
    rw [heq] at hremoved
    exact hnoted.trans hremoved
  · next err e₂ heq =>
    rw [heq] at hremoved hok
    refine hnoted.trans ⟨(hremoved.refusals).trans ?_, fun hsound => ?_⟩
    · rw [refusals_note]
      exact Nat.le_add_right ..
    · obtain ⟨u, hu⟩ := hok hsound
      cases hu

theorem loadStored (e : Engine) (loader : Loader) (m : Module) (k : Key) :
    Part e (e.loadStored loader m k).2 := by
  unfold Engine.loadStored
  split
  · next err hread =>
    refine note_refused ?_ ..
    rintro ⟨hfaults, s, hs⟩
    rw [readStore, hs, hfaults] at hread
    cases hread
  · exact refl e
  · next bytes hread =>
    have hbytes := loadBytes e loader m k bytes
    split
    · next loaded e₁ heq =>
      rw [heq] at hbytes
      have hcounted : Part e₁ { e₁ with storeHits := e₁.storeHits + 1 } := of_eq rfl rfl rfl
      exact (hbytes.trans hcounted).trans (note _ .debug _ (by decide))
    · next err e₁ heq =>
      rw [heq] at hbytes
      exact hbytes.trans (discard ..)

theorem keepSource (e : Engine) (m : Module) (k : Key) : Part e (e.keepSource m k) := by
  have hfiles : ∀ files, Part e { e with files } := fun files => of_eq rfl rfl rfl
  unfold Engine.keepSource
  dsimp only
  split
  · exact (hfiles _).trans (note _ .warn _ (by decide))
  · exact hfiles _

theorem compileArtifact (e : Engine) (t : Toolchain) (m : Module) (k : Key) :
    Part e (e.compileArtifact t m k).2.2 := by
  have hsource : Part e (if e.config.keepSources then e.keepSource m k else e) := by
    split
    · exact keepSource e m k
    · exact refl e
  have hcount : ∀ e : Engine, Part e { e with toolchainBuilds := e.toolchainBuilds + 1 } :=
    fun e => of_eq rfl rfl rfl
  unfold Engine.compileArtifact
  dsimp only
  split
  · exact hsource.trans (hcount _)
  · exact hsource.trans (hcount _)
  · exact (hsource.trans (hcount _)).trans (note _ .info _ (by decide))

theorem persist (e : Engine) (k : Key) (a : Artifact) : Part e (e.persist k a) := by
  obtain ⟨hwritten, hok⟩ := writeStore e k a.encode
  unfold Engine.persist
  split
  · next u e₁ heq =>
    rw [heq] at hwritten
    exact hwritten
  · next err e₁ heq =>
    rw [heq] at hwritten hok
    refine ⟨(hwritten.refusals).trans ?_, fun hsound => ?_⟩
    · rw [refusals_note]
      exact Nat.le_add_right ..
    · obtain ⟨u, hu⟩ := hok hsound
      cases hu

end Part

/-! ## What the store has -/

/-- What a part of a build comes to: what the store has then, how often the toolchain was asked, and how
many records were found unusable. -/
structure After (e e' : Engine) (c' : Stock) (builds corrupt : Nat) : Prop where
  modules : e'.modules = e.modules
  contents : e'.Contents c'
  builds : e'.toolchainBuilds = e.toolchainBuilds + builds
  corrupt : e'.corruptEntries = e.corruptEntries + corrupt

namespace After

variable {b b' n n' : Nat}

theorem refl (h : e.Contents c) : After e e c 0 0 := ⟨rfl, h, rfl, rfl⟩

theorem trans (h : After e e' c' b n) (h' : After e' e'' c'' b' n') :
    After e e'' c'' (b + b') (n + n') where
  modules := h'.modules.trans h.modules
  contents := h'.contents
  builds := by rw [h'.builds, h.builds, Nat.add_assoc]
  corrupt := by rw [h'.corrupt, h.corrupt, Nat.add_assoc]

theorem note (h : e.Contents c) (level : Level) (message : String) (detail : Option String) :
    After e (e.note level message detail) c 0 0 := ⟨rfl, h, rfl, rfl⟩

theorem removeStored (h : e.Contents c) (hok : (e.removeStored k).1.isOk = true) :
    After e (e.removeStored k).2 (Function.update c k none) 0 0 := by
  obtain ⟨s, hs, hcontents⟩ := h
  have hremoved := hcontents.remove k
  unfold Engine.removeStored at hok ⊢
  rw [hs] at hok ⊢
  dsimp only at hok ⊢
  split at hok
  · cases hok
  next hfault =>
  rw [if_neg hfault]
  rw [if_pos] at hremoved
  · exact ⟨rfl, ⟨_, rfl, hremoved⟩, rfl, rfl⟩
  · obtain ⟨u, hu⟩ := Outcome.isOk_iff.1 hok
    obtain ⟨found, hfound, -⟩ := Outcome.map_eq_ok.1 hu
    exact Outcome.isOk_iff.2 ⟨found, hfound⟩

theorem writeStore (h : e.Contents c) (hok : (e.writeStore k bytes).1.isOk = true) :
    After e (e.writeStore k bytes).2 (Function.update c k (some bytes)) 0 0 := by
  obtain ⟨s, hs, hcontents⟩ := h
  have hwritten := hcontents.write k bytes
  unfold Engine.writeStore at hok ⊢
  rw [hs] at hok ⊢
  dsimp only at hok ⊢
  split at hok
  · cases hok
  next hfault =>
  rw [if_neg hfault]
  rw [if_pos hok] at hwritten
  exact ⟨rfl, ⟨_, rfl, hwritten⟩, rfl, rfl⟩

theorem load (h : e.Contents c) (loader : Loader) (m : Module) (k : Key) (a : Artifact) :
    After e (e.load loader m k a).2 c 0 0 := by
  unfold Engine.load
  split
  · exact refl h
  · exact ⟨rfl, h, rfl, rfl⟩

theorem loadBytes (h : e.Contents c) (loader : Loader) (m : Module) (k : Key) (bytes : List UInt8) :
    After e (e.loadBytes loader m k bytes).2 c 0 0 := by
  unfold Engine.loadBytes
  split
  · exact refl h
  · split
    · exact refl h
    · exact load h loader m k _

/-- A record that is found unusable is removed. -/
theorem discard (h : e.Contents c) (k : Key) (reason : Error)
    (hsmooth : (e.discard k reason).refusals ≤ e.refusals) :
    After e (e.discard k reason) (Function.update c k none) 0 1 := by
  unfold Engine.discard at hsmooth ⊢
  set e₁ := { e with corruptEntries := e.corruptEntries + 1 }.note .warn "discarding corrupt cache entry"
    (some reason.message) with he₁
  have hcounted : After e e₁ c 0 1 := ⟨rfl, h, rfl, rfl⟩
  have hnoted : e.refusals ≤ e₁.refusals := by
    rw [he₁, refusals_note]
    exact Nat.le_add_right ..
  have hpart := (Part.removeStored e₁ k).1.refusals
  dsimp only at hsmooth ⊢
  split at hsmooth
  · next u e₂ heq =>
    have hok : (e₁.removeStored k).1.isOk = true := by
      rw [heq]
      rfl
    have hremoved := removeStored hcounted.contents hok
    rw [heq] at hremoved
    exact hcounted.trans hremoved
  · next err e₂ heq =>
    rw [heq] at hpart
    rw [refusals_note, if_pos (by decide)] at hsmooth
    dsimp only at hpart
    omega

theorem persist (h : e.Contents c) (k : Key) (a : Artifact)
    (hsmooth : (e.persist k a).refusals ≤ e.refusals) :
    After e (e.persist k a) (Function.update c k (some a.encode)) 0 0 := by
  have hpart := (Part.writeStore e k a.encode).1.refusals
  unfold Engine.persist at hsmooth ⊢
  split at hsmooth
  · next u e₁ heq =>
    have hok : (e.writeStore k a.encode).1.isOk = true := by
      rw [heq]
      rfl
    have hwritten := writeStore h hok
    rw [heq] at hwritten
    exact hwritten
  · next err e₁ heq =>
    rw [heq] at hpart
    rw [refusals_note, if_pos (by decide)] at hsmooth
    dsimp only at hpart
    omega

/-- The text of a module is kept where no record is. -/
theorem keepSource (h : e.Contents c) (m : Module) (k : Key) : After e (e.keepSource m k) c 0 0 := by
  have hname : Path.IsName (k.hex ++ ".c") := k.isName (by decide)
  have hfiles : ∀ {fs : Files}, (∀ d : DiskStore, d.Contents e.files c → d.Contents fs c) →
      After e { e with files := fs } c 0 0 := by
    intro fs hfs
    obtain ⟨s, hs, hcontents⟩ := h
    refine ⟨rfl, ⟨s, hs, ?_⟩, rfl, rfl⟩
    cases s with
    | memory s => exact hcontents
    | disk d => exact hfs d hcontents
  have hmade : ∀ d : DiskStore, d.Contents e.files c →
      d.Contents (e.files.makeDirectories e.sourcesDir).2 c := by
    intro d hd j
    have halters : Files.Alters (fun _ => False) _ e.files (e.files.makeDirectories e.sourcesDir).2 :=
      .makeDirectories e.files e.sourcesDir
    exact (hd j).alters halters id
  unfold Engine.keepSource
  dsimp only
  split
  · exact (hfiles hmade).trans (note (hfiles hmade).contents ..)
  · next fs heq =>
    refine hfiles fun d hd j => ?_
    obtain ⟨_, -, hwrite⟩ := Outcome.bind_eq_ok.1 heq
    have halters : Files.Alters (· = Path.place (e.sourcePath k)) (fun _ => False) _ fs := .write hwrite
    refine (hmade d hd j).alters halters fun hplace => ?_
    have hlast : (k.hex ++ ".c") = DiskStore.fileName j := by
      rw [DiskStore.place_eq, sourcePath, Path.place_join hname] at hplace
      have hnames := congrArg (fun l => l.names.getLast?) hplace
      simpa [Path.Location.child] using hnames.symm
    exact DiskStore.ne_fileName_of_length (by decide) hlast

theorem compileArtifact (h : e.Contents c) (t : Toolchain) (m : Module) (k : Key) :
    After e (e.compileArtifact t m k).2.2 c 1 0 := by
  have hsource : After e (if e.config.keepSources then e.keepSource m k else e) c 0 0 := by
    split
    · exact keepSource h m k
    · exact refl h
  have hcount : ∀ e₁ : Engine, After e e₁ c 0 0 →
      After e { e₁ with toolchainBuilds := e₁.toolchainBuilds + 1 } c 1 0 := by
    intro e₁ h₁
    exact ⟨h₁.modules, h₁.contents, congrArg (· + 1) h₁.builds, h₁.corrupt⟩
  unfold Engine.compileArtifact
  dsimp only
  split
  · exact hcount _ hsource
  · exact hcount _ hsource
  · exact (hcount _ hsource).trans (note (hcount _ hsource).contents ..)

end After

/-! ## Loading -/

theorem isOk_load (e : Engine) (loader : Loader) (m : Module) (k : Key) (a : Artifact) :
    (e.load loader m k a).1.isOk = (Loaded.openArtifact loader a).isOk := by
  unfold load
  cases Loaded.openArtifact loader a <;> rfl

theorem isOk_loadBytes (e : Engine) (loader : Loader) (m : Module) (k : Key) (bytes : List UInt8) :
    (e.loadBytes loader m k bytes).1.isOk = usable loader k bytes := by
  unfold loadBytes usable
  cases Artifact.decode k bytes with
  | error fault => rfl
  | ok a =>
    dsimp only
    by_cases hentry : a.entry = Module.entrySymbol
    · rw [if_neg (by simp [hentry]), ← isOk_load e loader m k a]
      cases (e.load loader m k a).1 <;> simp [hentry, Except.mapError, Except.isOk, Except.toBool]
    · rw [if_pos hentry]
      simp [hentry, Except.isOk, Except.toBool]

theorem readStore_contents (h : e.Contents c) {found : Option (List UInt8)}
    (hread : e.readStore k = .ok found) : found = c k := by
  obtain ⟨s, hs, hcontents⟩ := h
  rw [readStore, hs] at hread
  dsimp only at hread
  split at hread
  · cases hread
  · exact hcontents.read hread

/-- **What comes of a look into the store, if it refuses nothing**: a module if there is something usable,
and otherwise what is unusable is counted and removed. -/
theorem loadStored_spec (h : e.Contents c) (m : Module) (k : Key)
    (hsmooth : (e.loadStored loader m k).2.refusals ≤ e.refusals) :
    (stocked loader c k = true ∧ ∃ l, (e.loadStored loader m k).1 = some l ∧
      After e (e.loadStored loader m k).2 c 0 0) ∨
    (stocked loader c k = false ∧ (e.loadStored loader m k).1 = none ∧
      After e (e.loadStored loader m k).2 (Function.update c k none) 0
        (if (c k).isSome then 1 else 0)) := by
  unfold loadStored at hsmooth ⊢
  cases hread : e.readStore k with
  | error err =>
    rw [hread] at hsmooth
    dsimp only at hsmooth
    rw [refusals_note, if_pos (by decide)] at hsmooth
    omega
  | ok found =>
    rw [hread] at hsmooth
    have hfound := readStore_contents h hread
    cases found with
    | none =>
      refine Or.inr ⟨by simp [stocked, ← hfound], rfl, ?_⟩
      rw [← hfound, Function.update_eq_self_iff.2 hfound]
      exact .refl h
    | some bytes =>
      have husable := isOk_loadBytes e loader m k bytes
      have hloaded := After.loadBytes h loader m k bytes
      have hpart := (Part.loadBytes e loader m k bytes).refusals
      dsimp only at hsmooth ⊢
      rcases hload : e.loadBytes loader m k bytes with ⟨result, e₁⟩
      rw [hload] at husable hloaded hsmooth hpart
      cases result with
      | ok l =>
        refine Or.inl ⟨?_, l, rfl, ?_⟩
        · rw [stocked, ← hfound]
          exact husable.symm
        · exact ⟨hloaded.modules, hloaded.contents, hloaded.builds, hloaded.corrupt⟩
      | error err =>
        refine Or.inr ⟨?_, rfl, ?_⟩
        · rw [stocked, ← hfound]
          exact husable.symm
        · rw [← hfound]
          exact hloaded.trans (.discard hloaded.contents k err (hsmooth.trans hpart))

/-! ## Building -/

/-- The library that a toolchain makes of a module, if it makes one. -/
def made (t : Toolchain) (m : Module) (k : Key) : Option (List UInt8) := (t.build m k).result.toOption.join

/-- Whether a library can be opened for a module. -/
def opens (loader : Loader) (m : Module) (k : Key) (library : List UInt8) : Bool :=
  (Loaded.openArtifact loader (m.artifact k library)).isOk

/-- The record of what a toolchain makes of a module. -/
def record (t : Toolchain) (m : Module) (k : Key) : Option (List UInt8) :=
  (made t m k).map fun library => (m.artifact k library).encode

/-- A library is loaded from its record if it can be opened, unless it is empty. -/
theorem usable_encode {library : List UInt8} (hloader : loader [] = none) (hshort : Wire.Short library) :
    usable loader k (m.artifact k library).encode = opens loader m k library := by
  rw [usable, Module.artifact, Artifact.decode_encode k _ _ hshort, opens]
  split
  · next fault hfault =>
    split at hfault
    · next hempty =>
      rw [hempty, Loaded.openArtifact]
      simp [Module.artifact, Artifact.new, hloader, Except.isOk, Except.toBool]
    · cases hfault
  · next a ha =>
    split at ha
    · cases ha
    · cases ha
      simp [Artifact.new, Module.artifact]

/-- The engine that looks into the store. -/
def looking (e : Engine) : Engine := e.note .debug "module cache miss"

/-- The engine after the toolchain was asked. -/
def compiling (e : Engine) (t : Toolchain) (loader : Loader) (m : Module) (k : Key) : Engine :=
  ((e.looking.loadStored loader m k).2.compileArtifact t m k).2.2

/-- The engine with the artifact of a library, which the toolchain made, in the store. -/
def storing (e : Engine) (t : Toolchain) (loader : Loader) (m : Module) (k : Key)
    (library : List UInt8) : Engine :=
  (e.compiling t loader m k).persist k (m.artifact k library)

/-- What the toolchain gives is the artifact of the library that it makes. -/
theorem compileArtifact_made (e : Engine) (t : Toolchain) (m : Module) (k : Key) :
    e.compileArtifact t m k = ((t.build m k).raises, (e.compileArtifact t m k).2.1,
      (e.compileArtifact t m k).2.2) ∧
    match made t m k with
    | none => ∃ err, (e.compileArtifact t m k).2.1 = .error err
    | some library => (e.compileArtifact t m k).2.1 = .ok (m.artifact k library) := by
  obtain ⟨hraises, hartifact⟩ := compileArtifact_eq e t m k
  refine ⟨by rw [← hraises], ?_⟩
  rw [hartifact, made]
  cases (t.build m k).result with
  | error err => exact ⟨_, rfl⟩
  | ok library =>
    cases library with
    | none => exact ⟨_, rfl⟩
    | some library => rfl

theorem build_of_loaded {l : Loaded} (hload : (e.looking.loadStored loader m k).1 = some l) :
    e.build ⟨t, loader⟩ m k = ({ outcome := some (.ok l) }, (e.looking.loadStored loader m k).2) := by
  rw [looking] at hload ⊢
  unfold build
  split
  · next l' e₁ heq =>
    rw [heq] at hload ⊢
    cases hload
    rfl
  · next e₁ heq =>
    rw [heq] at hload
    cases hload

theorem build_of_unloaded (hload : (e.looking.loadStored loader m k).1 = none) :
    e.build ⟨t, loader⟩ m k =
      match (e.looking.loadStored loader m k).2.compileArtifact t m k with
      | (raises, .error err, e) => ({ raises, outcome := some (.error err) }, e)
      | (raises, .ok a, e) =>
        ({ raises, outcome := some ((e.persist k a).load loader m k a).1 },
          ((e.persist k a).load loader m k a).2) := by
  rcases hlooked : e.looking.loadStored loader m k with ⟨found, e₁⟩
  rw [hlooked] at hload
  replace hload : found = none := hload
  rw [hload, looking] at hlooked
  rcases hcompile : e₁.compileArtifact t m k with ⟨raises, err | a, e₂⟩ <;>
    simp only [build, hlooked, hcompile]

/-- Where the store gives nothing, the artifact of what the toolchain makes is stored and loaded. -/
theorem build_of_made {library : List UInt8} (hload : (e.looking.loadStored loader m k).1 = none)
    (hmade : made t m k = some library) :
    e.build ⟨t, loader⟩ m k =
      ({ raises := (t.build m k).raises
         outcome := some
          ((e.storing t loader m k library).load loader m k (m.artifact k library)).1 },
        ((e.storing t loader m k library).load loader m k (m.artifact k library)).2) := by
  obtain ⟨hparts, hartifact⟩ := compileArtifact_made (e.looking.loadStored loader m k).2 t m k
  rw [hmade] at hartifact
  rw [build_of_unloaded hload, hparts, hartifact]
  rfl

theorem build_of_unmade (hload : (e.looking.loadStored loader m k).1 = none) (hmade : made t m k = none) :
    ∃ err, e.build ⟨t, loader⟩ m k =
      ({ raises := (t.build m k).raises, outcome := some (.error err) }, e.compiling t loader m k) := by
  obtain ⟨hparts, hartifact⟩ := compileArtifact_made (e.looking.loadStored loader m k).2 t m k
  rw [hmade] at hartifact
  obtain ⟨err, herr⟩ := hartifact
  refine ⟨err, ?_⟩
  rw [build_of_unloaded hload, hparts, herr]
  rfl

theorem Part.compiling (e : Engine) (t : Toolchain) (loader : Loader) (m : Module) (k : Key) :
    Part (e.looking.loadStored loader m k).2 (e.compiling t loader m k) := .compileArtifact ..

theorem Part.storing (e : Engine) (t : Toolchain) (loader : Loader) (m : Module) (k : Key)
    (library : List UInt8) : Part (e.compiling t loader m k) (e.storing t loader m k library) :=
  .persist ..

theorem Part.looked (e : Engine) (loader : Loader) (m : Module) (k : Key) :
    Part e (e.looking.loadStored loader m k).2 :=
  (Part.note e .debug none (by decide)).trans (.loadStored ..)

theorem Part.built (e : Engine) (t : Toolchain) (loader : Loader) (m : Module) (k : Key) :
    Part (e.looking.loadStored loader m k).2 (e.build ⟨t, loader⟩ m k).2 := by
  cases hload : (e.looking.loadStored loader m k).1 with
  | some l =>
    rw [build_of_loaded hload]
    exact .refl _
  | none =>
    cases hmade : made t m k with
    | none =>
      obtain ⟨err, hbuild⟩ := build_of_unmade hload hmade
      rw [hbuild]
      exact .compiling ..
    | some library =>
      rw [build_of_made hload hmade]
      exact ((Part.compiling ..).trans (.storing ..)).trans (.load ..)

theorem Part.build (e : Engine) (t : Toolchain) (loader : Loader) (m : Module) (k : Key) :
    Part e (e.build ⟨t, loader⟩ m k).2 := (Part.looked e loader m k).trans (.built ..)

/-- A build gives an outcome, and leaves memory alone. -/
theorem exists_build_eq (e : Engine) (t : Toolchain) (loader : Loader) (m : Module) (k : Key) :
    ∃ raises result e', e.build ⟨t, loader⟩ m k = ({ raises, outcome := some result }, e') ∧
      e'.modules = e.modules := by
  have hloaded : Kept (fun _ _ => True) e.looking (e.looking.loadStored loader m k).2 :=
    loadStored_kept ..
  have hcompiled : Kept (fun _ _ => True) e.looking (e.compiling t loader m k) :=
    hloaded.trans (compileArtifact_kept ..)
  cases hload : (e.looking.loadStored loader m k).1 with
  | some l => exact ⟨_, _, _, build_of_loaded hload, hloaded.modules⟩
  | none =>
    cases hmade : made t m k with
    | none =>
      obtain ⟨err, hbuild⟩ := build_of_unmade hload hmade
      exact ⟨_, _, _, hbuild, hcompiled.modules⟩
    | some library =>
      have hstored : Kept (fun _ _ => True) e.looking (e.storing t loader m k library) :=
        hcompiled.trans (persist_kept _ trivial)
      exact ⟨_, _, _, build_of_made hload hmade, (hstored.trans (load_kept ..)).modules⟩

/-- A build from something usable asks no toolchain. -/
theorem build_stocked (h : e.Contents c) (hstocked : stocked loader c k = true)
    (hsmooth : (e.build ⟨t, loader⟩ m k).2.refusals ≤ e.refusals) :
    ∃ l e', e.build ⟨t, loader⟩ m k = ({ outcome := some (.ok l) }, e') ∧ After e e' c 0 0 := by
  have hlook : After e e.looking c 0 0 := .note h ..
  have hloaded := (Part.built e t loader m k).refusals.trans hsmooth
  rcases loadStored_spec hlook.contents m k (hloaded.trans (Part.note e .debug none (by decide)).refusals)
    with ⟨-, l, hl, hafter⟩ | ⟨hun, -⟩
  · exact ⟨l, _, build_of_loaded hl, hlook.trans hafter⟩
  · rw [hstocked] at hun
    cases hun

/-- **A build from nothing usable asks the toolchain**, and leaves the record of what that makes. -/
theorem build_unstocked (h : e.Contents c) (hstocked : stocked loader c k = false)
    (hsmooth : (e.build ⟨t, loader⟩ m k).2.refusals ≤ e.refusals) :
    ∃ result e', e.build ⟨t, loader⟩ m k =
        ({ raises := (t.build m k).raises, outcome := some result }, e') ∧
      result.isOk = (made t m k).any (opens loader m k) ∧
      After e e' (Function.update c k (record t m k)) 1 (if (c k).isSome then 1 else 0) := by
  have hlook : After e e.looking c 0 0 := .note h ..
  have hloaded := (Part.built e t loader m k).refusals.trans hsmooth
  rcases loadStored_spec hlook.contents m k (hloaded.trans (Part.note e .debug none (by decide)).refusals)
    with ⟨hst, -⟩ | ⟨-, hl, hafter⟩
  · rw [hstocked] at hst
    cases hst
  · have hcompiling : After e (e.compiling t loader m k) (Function.update c k none) 1
        (if (c k).isSome then 1 else 0) := by
      have hasked := (hlook.trans hafter).trans (.compileArtifact hafter.contents t m k)
      rwa [Nat.zero_add, Nat.zero_add, Nat.add_zero] at hasked
    rw [record]
    cases hmade : made t m k with
    | none =>
      obtain ⟨err, hbuild⟩ := build_of_unmade hl hmade
      exact ⟨.error err, _, hbuild, rfl, hcompiling⟩
    | some library =>
      rw [build_of_made hl hmade] at hsmooth ⊢
      have hstored : (e.storing t loader m k library).refusals ≤ (e.compiling t loader m k).refusals := by
        have hbefore := ((Part.looked e loader m k).trans (.compiling e t loader m k)).refusals
        exact ((Part.load ..).refusals.trans hsmooth).trans hbefore
      have hstoring : After e (e.storing t loader m k library)
          (Function.update c k (some (m.artifact k library).encode)) 1
          (if (c k).isSome then 1 else 0) := by
        have hpersist := After.persist hcompiling.contents k (m.artifact k library) hstored
        rw [Function.update_idem] at hpersist
        exact hcompiling.trans hpersist
      refine ⟨_, _, rfl, isOk_load .., ?_⟩
      exact hstoring.trans (.load hstoring.contents ..)

end OpFusion.Engine
