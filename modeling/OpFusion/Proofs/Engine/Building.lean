/-
  Building a module, from the store or from scratch.

  `scratch` is what comes of a module that nothing was ever kept of. A build only changes what is on
  record (`Kept`): the modules in memory stay, and the store holds what is good under each key. If all
  that can be read for the key of a module is the artifact that its own compilation makes, a build comes
  to the same as one from scratch (`build_eq`).
-/
import OpFusion.Engine.Request
import OpFusion.Proofs.Store.Contents

namespace OpFusion

/-- A loaded module without the number of its variables. -/
def Loaded.unnumbered (l : Loaded) : Loaded := { l with unit := 0 }

/-- The artifact of a module for a library. -/
def Module.artifact (m : Module) (k : Key) (library : List UInt8) : Artifact :=
  .new k entrySymbol m.hasInit m.reentrant library

namespace Engine

variable {e e' e'' : Engine} {tools : Tools} {m : Module} {k : Key} {good : Key → List UInt8 → Prop}

/-- A module that is loaded from an artifact. -/
def opened (loader : Loader) (m : Module) (k : Key) (a : Artifact) : Except Error Loaded :=
  match Loaded.openArtifact loader a with
  | .error fault => .error fault.toError
  | .ok (code, _) => .ok ⟨k, m.inputDescs, m.outputDescs, a, code, 0⟩

/-- What comes of a module that nothing was kept of. -/
def scratch (tools : Tools) (m : Module) (k : Key) : Except Error Loaded :=
  match (tools.toolchain.build m k).result with
  | .error err => .error (Attribution.blame m err)
  | .ok none => .error (.io ("read " ++ outputPath) Files.Fault.notFound.message)
  | .ok (some library) => opened tools.loader m k (m.artifact k library)

/-! ## What stays -/

/-- Whatever the store has under a key is good for it. -/
def StoreHolds (good : Key → List UInt8 → Prop) (e : Engine) : Prop :=
  ∀ s, e.store = some s → s.Holds good e.files

/-- What a part of a build leaves alone. -/
structure Kept (good : Key → List UInt8 → Prop) (e e' : Engine) : Prop where
  modules : e'.modules = e.modules
  store : e.StoreHolds good → e'.StoreHolds good

theorem Kept.refl (good : Key → List UInt8 → Prop) (e : Engine) : Kept good e e := ⟨rfl, id⟩

theorem Kept.trans (h : Kept good e e') (h' : Kept good e' e'') : Kept good e e'' :=
  ⟨h'.modules.trans h.modules, h'.store ∘ h.store⟩

theorem note_kept (e : Engine) (level : Level) (message : String) (detail : Option String) :
    Kept good e (e.note level message detail) := ⟨rfl, id⟩

theorem removeStored_kept (e : Engine) (k : Key) : Kept good e (e.removeStored k).2 := by
  unfold removeStored
  split
  · exact .refl good e
  · next s hs =>
    split
    · exact .refl good e
    · refine ⟨rfl, fun h s' hs' => ?_⟩
      cases hs'
      exact (h s hs).remove k

theorem writeStore_kept (e : Engine) {bytes : List UInt8} (hgood : good k bytes) :
    Kept good e (e.writeStore k bytes).2 := by
  unfold writeStore
  split
  · exact .refl good e
  · next s hs =>
    split
    · exact .refl good e
    · refine ⟨rfl, fun h s' hs' => ?_⟩
      cases hs'
      exact (h s hs).write hgood

theorem readStore_good (h : e.StoreHolds good) {bytes : List UInt8}
    (hread : e.readStore k = .ok (some bytes)) : good k bytes := by
  unfold readStore at hread
  split at hread
  · cases hread
  · next s hs =>
    split at hread
    · cases hread
    · exact (h s hs).read hread

theorem discard_kept (e : Engine) (k : Key) (reason : Error) : Kept good e (e.discard k reason) := by
  unfold discard
  have hcount : Kept good e { e with corruptEntries := e.corruptEntries + 1 } := ⟨rfl, id⟩
  have hnote := hcount.trans (note_kept _ .warn "discarding corrupt cache entry" (some reason.message))
  have hremove := hnote.trans (removeStored_kept _ k)
  dsimp only
  split
  · next u e₁ heq =>
    rw [heq] at hremove
    exact hremove
  · next err e₁ heq =>
    rw [heq] at hremove
    exact hremove.trans (note_kept ..)

theorem keepSource_kept (e : Engine) (m : Module) (k : Key) : Kept good e (e.keepSource m k) := by
  have hfiles : ∀ {fs : Files}, (Store.FilesHold good e.files → Store.FilesHold good fs) →
      Kept good e { e with files := fs } := by
    intro fs hfs
    refine ⟨rfl, fun h s hs => ?_⟩
    cases s with
    | memory s => exact h _ hs
    | disk d => exact hfs (h _ hs)
  have hname : Path.IsName (k.hex ++ ".c") := k.isName (by decide)
  unfold keepSource
  dsimp only
  split
  · next fault heq => exact (hfiles fun h => Files.Keeps.makeDirectories h _).trans (note_kept ..)
  · next fs heq =>
    refine hfiles fun h => ?_
    obtain ⟨_, -, hwrite⟩ := Outcome.bind_eq_ok.1 heq
    refine Store.FilesHold.write (Files.Keeps.makeDirectories h _) hname (fun j hj => ?_) hwrite
    exact absurd hj (DiskStore.ne_fileName_of_length (by decide))

/-! ## The parts of a build -/

theorem load_eq (e : Engine) (loader : Loader) (m : Module) (k : Key) (a : Artifact) :
    (e.load loader m k a).1.map Loaded.unnumbered = opened loader m k a := by
  rw [load, opened]
  cases Loaded.openArtifact loader a <;> rfl

theorem load_kept (e : Engine) (loader : Loader) (m : Module) (k : Key) (a : Artifact) :
    Kept good e (e.load loader m k a).2 := by
  unfold load
  split
  · exact .refl good e
  · exact ⟨rfl, id⟩

/-- A module that is loaded from bytes is one that is loaded from the artifact they encode. -/
theorem loadBytes_eq {loader : Loader} {bytes : List UInt8} {l : Loaded}
    (h : (e.loadBytes loader m k bytes).1 = .ok l) :
    ∃ a, Artifact.decode k bytes = .ok a ∧ opened loader m k a = .ok l.unnumbered := by
  unfold loadBytes at h
  split at h
  · cases h
  · next a ha =>
    split at h
    · cases h
    · have hload : (e.load loader m k a).1 = .ok l := Outcome.mapError_eq_ok.1 h
      refine ⟨a, ha, ?_⟩
      rw [← load_eq e, hload]
      rfl

theorem loadBytes_kept (e : Engine) (loader : Loader) (m : Module) (k : Key) (bytes : List UInt8) :
    Kept good e (e.loadBytes loader m k bytes).2 := by
  unfold loadBytes
  split
  · exact .refl good e
  · split
    · exact .refl good e
    · exact load_kept ..

/-- What is loaded from the store is good. -/
theorem loadStored_eq {loader : Loader} {l : Loaded} (hstore : e.StoreHolds good)
    (h : (e.loadStored loader m k).1 = some l) :
    ∃ bytes a, good k bytes ∧ Artifact.decode k bytes = .ok a ∧
      opened loader m k a = .ok l.unnumbered := by
  unfold loadStored at h
  split at h
  · cases h
  · cases h
  · next bytes hread =>
    split at h
    · next loaded e₁ heq =>
      cases h
      obtain ⟨a, ha, hopened⟩ := loadBytes_eq (congrArg Prod.fst heq)
      exact ⟨bytes, a, readStore_good hstore hread, ha, hopened⟩
    · cases h

theorem loadStored_kept (e : Engine) (loader : Loader) (m : Module) (k : Key) :
    Kept good e (e.loadStored loader m k).2 := by
  unfold loadStored
  split
  · exact note_kept ..
  · exact .refl good e
  · next bytes hread =>
    have hkept : Kept good e (e.loadBytes loader m k bytes).2 := loadBytes_kept ..
    split
    · next loaded e₁ heq =>
      rw [heq] at hkept
      exact hkept.trans ⟨rfl, id⟩
    · next err e₁ heq =>
      rw [heq] at hkept
      exact hkept.trans (discard_kept ..)

theorem persist_kept (e : Engine) {a : Artifact} (hgood : good k a.encode) :
    Kept good e (e.persist k a) := by
  have hkept : Kept good e (e.writeStore k a.encode).2 := writeStore_kept e hgood
  unfold persist
  split
  · next u e₁ heq =>
    rw [heq] at hkept
    exact hkept
  · next err e₁ heq =>
    rw [heq] at hkept
    exact hkept.trans (note_kept ..)

theorem compileArtifact_kept (e : Engine) (t : Toolchain) (m : Module) (k : Key) :
    Kept good e (e.compileArtifact t m k).2.2 := by
  have hsource : Kept good e (if e.config.keepSources then e.keepSource m k else e) := by
    split
    · exact keepSource_kept e m k
    · exact .refl good e
  have hcount : ∀ e : Engine, Kept good e { e with toolchainBuilds := e.toolchainBuilds + 1 } :=
    fun _ => ⟨rfl, id⟩
  unfold compileArtifact
  dsimp only
  split
  · exact hsource.trans (hcount _)
  · exact hsource.trans (hcount _)
  · exact (hsource.trans (hcount _)).trans (note_kept ..)

/-- What compiling a module comes to, and whether the token was raised. -/
theorem compileArtifact_eq (e : Engine) (t : Toolchain) (m : Module) (k : Key) :
    (e.compileArtifact t m k).1 = (t.build m k).raises ∧
      (e.compileArtifact t m k).2.1 =
        match (t.build m k).result with
        | .error err => .error (Attribution.blame m err)
        | .ok none => .error (.io ("read " ++ outputPath) Files.Fault.notFound.message)
        | .ok (some library) => .ok (m.artifact k library) := by
  unfold compileArtifact
  cases hresult : (t.build m k).result with
  | error err => simp [hresult]
  | ok library => cases library <;> simp [hresult, Module.artifact]

theorem build_of_stored {l : Loaded} {e₁ : Engine}
    (hstore : (e.note .debug "module cache miss").StoreHolds good)
    (hload : (e.note .debug "module cache miss").loadStored tools.loader m k = (some l, e₁))
    (hread : ∀ bytes a, good k bytes → Artifact.decode k bytes = .ok a →
      ∃ library, (tools.toolchain.build m k).result = .ok (some library) ∧ a = m.artifact k library) :
    e.build tools m k = ({ outcome := some (.ok l) }, e₁) ∧
      scratch tools m k = .ok l.unnumbered := by
  obtain ⟨bytes, a, hbytes, hdecode, hopened⟩ := loadStored_eq hstore (congrArg Prod.fst hload)
  obtain ⟨library, hresult, rfl⟩ := hread bytes a hbytes hdecode
  constructor
  · rw [build, hload]
  · rw [scratch, hresult]
    exact hopened

/-- A build without a stored artifact: what the toolchain makes is stored and opened. -/
theorem build_of_missing {e₁ : Engine}
    (hload : (e.note .debug "module cache miss").loadStored tools.loader m k = (none, e₁))
    (hquiet : (tools.toolchain.build m k).raises = false)
    (hgood : ∀ library, (tools.toolchain.build m k).result = .ok (some library) →
      good k (m.artifact k library).encode) :
    ∃ result e', e.build tools m k = ({ outcome := some result }, e') ∧
      result.map Loaded.unnumbered = scratch tools m k ∧ Kept good e₁ e' := by
  obtain ⟨hraises, hartifact⟩ := compileArtifact_eq e₁ tools.toolchain m k
  have hkept : Kept good e₁ (e₁.compileArtifact tools.toolchain m k).2.2 := compileArtifact_kept ..
  rcases hcompile : e₁.compileArtifact tools.toolchain m k with ⟨raises, artifact, e₂⟩
  rw [hcompile] at hraises hartifact hkept
  dsimp only at hraises hartifact hkept
  rw [hquiet] at hraises
  subst hraises
  have hfailed {err : Error} (herr : artifact = .error err) :
      e.build tools m k = ({ outcome := some (.error err) }, e₂) := by
    rw [build, hload]
    dsimp only
    rw [hcompile, herr]
  rw [scratch]
  cases hresult : (tools.toolchain.build m k).result with
  | error err =>
    rw [hresult] at hartifact
    exact ⟨_, e₂, hfailed hartifact, rfl, hkept⟩
  | ok library =>
    rw [hresult] at hartifact
    cases library with
    | none => exact ⟨_, e₂, hfailed hartifact, rfl, hkept⟩
    | some library =>
      let e₃ := e₂.persist k (m.artifact k library)
      have hloaded : Kept good e₃ (e₃.load tools.loader m k (m.artifact k library)).2 := load_kept ..
      refine ⟨_, _, ?_, load_eq e₃ tools.loader m k (m.artifact k library),
        (hkept.trans (persist_kept _ (hgood library hresult))).trans hloaded⟩
      rw [build, hload]
      dsimp only
      rw [hcompile, hartifact]

/-- **A build comes to the same as one from scratch**, if nothing but the artifact of the module can be
read under its key. -/
theorem build_eq (hstore : e.StoreHolds good) (hquiet : (tools.toolchain.build m k).raises = false)
    (hgood : ∀ library, (tools.toolchain.build m k).result = .ok (some library) →
      good k (m.artifact k library).encode)
    (hread : ∀ bytes a, good k bytes → Artifact.decode k bytes = .ok a →
      ∃ library, (tools.toolchain.build m k).result = .ok (some library) ∧ a = m.artifact k library) :
    ∃ result e', e.build tools m k = ({ outcome := some result }, e') ∧
      result.map Loaded.unnumbered = scratch tools m k ∧ Kept good e e' := by
  have hnote : Kept good e (e.note .debug "module cache miss") := note_kept ..
  have hkept := hnote.trans (loadStored_kept _ tools.loader m k)
  rcases hload : (e.note .debug "module cache miss").loadStored tools.loader m k with ⟨found, e₁⟩
  rw [hload] at hkept
  cases found with
  | some l =>
    obtain ⟨hbuild, hscratch⟩ := build_of_stored (hnote.store hstore) hload hread
    exact ⟨.ok l, e₁, hbuild, hscratch.symm, hkept⟩
  | none =>
    obtain ⟨result, e', hbuild, hscratch, hkept'⟩ := build_of_missing hload hquiet hgood
    exact ⟨result, e', hbuild, hscratch, hkept.trans hkept'⟩

end Engine

end OpFusion
