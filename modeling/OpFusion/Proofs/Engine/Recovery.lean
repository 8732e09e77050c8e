/-
  An unusable entry of the store is as good as none.

  Up to its last step a build from nothing usable loads nothing (`Loadless`), so what it comes to is what a
  build from scratch comes to, with the next number for the variables (`build_outcome`). A request then
  gives the same whether its key has an unusable entry or none, and replaces the entry
  (`compile_unusable`).
-/
import OpFusion.Proofs.Engine.Reuse

namespace OpFusion

/-- A loaded module with another number of its variables. -/
def Loaded.numbered (n : Nat) (l : Loaded) : Loaded := { l with unit := n }

namespace Engine

variable {e e' e'' : Engine} {loader : Loader} {t : Toolchain} {g : Graph} {m : Module} {k : Key} {c : Stock}
  {bytes : List UInt8}

/-! ## Loading nothing -/

/-- A part of a build that loads no module. -/
structure Loadless (e e' : Engine) : Prop where
  units : e'.units = e.units
  storeHits : e'.storeHits = e.storeHits

namespace Loadless

theorem refl (e : Engine) : Loadless e e := ⟨rfl, rfl⟩

theorem trans (h : Loadless e e') (h' : Loadless e' e'') : Loadless e e'' :=
  ⟨h'.units.trans h.units, h'.storeHits.trans h.storeHits⟩

theorem note (e : Engine) (level : Level) (message : String) (detail : Option String) :
    Loadless e (e.note level message detail) := ⟨rfl, rfl⟩

theorem removeStored (e : Engine) (k : Key) : Loadless e (e.removeStored k).2 := by
  unfold Engine.removeStored
  split
  · exact refl e
  · split
    · exact refl e
    · exact ⟨rfl, rfl⟩

theorem writeStore (e : Engine) (k : Key) (bytes : List UInt8) : Loadless e (e.writeStore k bytes).2 := by
  unfold Engine.writeStore
  split
  · exact refl e
  · split
    · exact refl e
    · exact ⟨rfl, rfl⟩

theorem discard (e : Engine) (k : Key) (reason : Error) : Loadless e (e.discard k reason) := by
  unfold Engine.discard
  set e₁ := { e with corruptEntries := e.corruptEntries + 1 }.note .warn "discarding corrupt cache entry"
    (some reason.message)
  have hnoted : Loadless e e₁ := ⟨rfl, rfl⟩
  have hremoved := removeStored e₁ k
  dsimp only
  split
  · next u e₂ heq =>
    rw [heq] at hremoved
    exact hnoted.trans hremoved
  · next err e₂ heq =>
    rw [heq] at hremoved
    exact (hnoted.trans hremoved).trans (note ..)

/-- Nothing is loaded from bytes that are unusable. -/
theorem loadBytes (h : usable loader k bytes = false) : Loadless e (e.loadBytes loader m k bytes).2 := by
  unfold usable at h
  unfold Engine.loadBytes
  split
  · exact refl e
  · next a ha =>
    rw [ha] at h
    split
    · exact refl e
    · next hentry =>
      have hopen : (Loaded.openArtifact loader a).isOk = false := by
        simpa [Decidable.not_not.1 hentry] using h
      unfold load
      cases hopened : Loaded.openArtifact loader a with
      | error fault => exact refl e
      | ok code =>
        rw [hopened] at hopen
        cases hopen

theorem loadStored (h : e.Contents c) (hstocked : stocked loader c k = false) :
    (e.loadStored loader m k).1 = none ∧ Loadless e (e.loadStored loader m k).2 := by
  unfold Engine.loadStored
  cases hread : e.readStore k with
  | error err => exact ⟨rfl, note ..⟩
  | ok found =>
    have hfound := readStore_contents h hread
    cases found with
    | none => exact ⟨rfl, refl e⟩
    | some bytes =>
      have husable : usable loader k bytes = false := by
        rw [stocked, ← hfound] at hstocked
        exact hstocked
      have hloaded : Loadless e (e.loadBytes loader m k bytes).2 := loadBytes husable
      have hfails := isOk_loadBytes e loader m k bytes
      dsimp only
      rcases hload : e.loadBytes loader m k bytes with ⟨result, e₁⟩
      rw [hload] at hloaded hfails
      cases result with
      | ok l =>
        rw [husable] at hfails
        cases hfails
      | error err => exact ⟨rfl, hloaded.trans (discard ..)⟩

theorem keepSource (e : Engine) (m : Module) (k : Key) : Loadless e (e.keepSource m k) := by
  unfold Engine.keepSource
  dsimp only
  split
  · exact ⟨rfl, rfl⟩
  · exact ⟨rfl, rfl⟩

theorem compileArtifact (e : Engine) (t : Toolchain) (m : Module) (k : Key) :
    Loadless e (e.compileArtifact t m k).2.2 := by
  have hsource : Loadless e (if e.config.keepSources then e.keepSource m k else e) := by
    split
    · exact keepSource e m k
    · exact refl e
  have hcount : ∀ e : Engine, Loadless e { e with toolchainBuilds := e.toolchainBuilds + 1 } :=
    fun _ => ⟨rfl, rfl⟩
  unfold Engine.compileArtifact
  dsimp only
  split
  · exact hsource.trans (hcount _)
  · exact hsource.trans (hcount _)
  · exact (hsource.trans (hcount _)).trans (note ..)

theorem persist (e : Engine) (k : Key) (a : Artifact) : Loadless e (e.persist k a) := by
  have hwritten := writeStore e k a.encode
  unfold Engine.persist
  split
  · next u e₁ heq =>
    rw [heq] at hwritten
    exact hwritten
  · next err e₁ heq =>
    rw [heq] at hwritten
    exact hwritten.trans (note ..)

end Loadless

/-! ## What a build comes to -/

/-- What is loaded gets the next number for its variables, and is no hit. -/
theorem load_numbered (e : Engine) (loader : Loader) (m : Module) (k : Key) (a : Artifact) :
    (e.load loader m k a).1 = (opened loader m k a).map (Loaded.numbered e.units.length) ∧
      (e.load loader m k a).2.storeHits = e.storeHits := by
  rw [load, opened]
  cases Loaded.openArtifact loader a with
  | error fault => exact ⟨rfl, rfl⟩
  | ok code => exact ⟨rfl, rfl⟩

/-- **A build from nothing usable comes to what one from scratch does**, and is no hit. -/
theorem build_outcome (h : e.Contents c) (hstocked : stocked loader c k = false) (t : Toolchain)
    (m : Module) :
    (e.build ⟨t, loader⟩ m k).1 =
        { raises := (t.build m k).raises
          outcome := some ((scratch ⟨t, loader⟩ m k).map (Loaded.numbered e.units.length)) } ∧
      (e.build ⟨t, loader⟩ m k).2.storeHits = e.storeHits := by
  have hcontents : e.looking.Contents c := h
  obtain ⟨hnone, hlooked⟩ := Loadless.loadStored (m := m) hcontents hstocked
  have hlooked : Loadless e (e.looking.loadStored loader m k).2 := ⟨hlooked.units, hlooked.storeHits⟩
  have hcompiled : Loadless e (e.compiling t loader m k) := hlooked.trans (.compileArtifact ..)
  cases hmade : made t m k with
  | some library =>
    have hstored := hcompiled.trans (.persist (e.compiling t loader m k) k (m.artifact k library))
    obtain ⟨hloaded, hhits⟩ :=
      load_numbered (e.storing t loader m k library) loader m k (m.artifact k library)
    have hresult : (t.build m k).result = .ok (some library) := by
      unfold made at hmade
      cases hresult : (t.build m k).result with
      | error err => simp [hresult, Except.toOption] at hmade
      | ok found =>
        rw [hresult] at hmade
        exact congrArg Except.ok hmade
    rw [build_of_made hnone hmade, scratch, hresult]
    refine ⟨?_, hhits.trans hstored.storeHits⟩
    rw [hloaded, storing, hstored.units]
  | none =>
    obtain ⟨-, hartifact⟩ := compileArtifact_eq (e.looking.loadStored loader m k).2 t m k
    obtain ⟨hparts, -⟩ := compileArtifact_made (e.looking.loadStored loader m k).2 t m k
    rw [build_of_unloaded hnone, hparts, hartifact, scratch]
    unfold made at hmade
    cases hresult : (t.build m k).result with
    | error err => exact ⟨rfl, hcompiled.storeHits⟩
    | ok found =>
      rw [hresult] at hmade
      cases found with
      | none => exact ⟨rfl, hcompiled.storeHits⟩
      | some library => cases hmade

/-! ## Requests -/

/-- What a request for a module gives that is neither in memory nor in the store. -/
def recompiled (e : Engine) (tools : Tools) (m : Module) (k : Key) : Except Error Loaded :=
  if (tools.toolchain.build m k).raises then .error .cancelled
  else (scratch tools m k).map (Loaded.numbered e.units.length)

theorem request_unstocked (t : Toolchain) (m : Module) (h : e.Contents c)
    (hquiet : e.modules.Quiet) (hready : e.modules.cache.ready.use? k = none)
    (hstocked : stocked loader c k = false) :
    (e.request ⟨t, loader⟩ m k false).1 = e.recompiled ⟨t, loader⟩ m k ∧
      (e.request ⟨t, loader⟩ m k false).2.storeHits = e.storeHits := by
  obtain ⟨raises, result, e', hbuild, hrequest⟩ := request_unready t loader m hquiet hready
  have hnoted : Loadless e (e.building k) := by
    unfold building noted
    split
    · exact ⟨rfl, rfl⟩
    · exact ⟨rfl, rfl⟩
  obtain ⟨houtcome, hhits⟩ := build_outcome (After.building h k).1 hstocked t m
  rw [hbuild] at houtcome hhits
  cases houtcome
  rw [hrequest, recompiled, hnoted.units]
  exact ⟨rfl, hhits.trans hnoted.storeHits⟩

/-- What is kept of a request for a module that is neither in memory nor usable in the store. -/
theorem request_replaces (h : e.Contents c) (hquiet : e.modules.Quiet)
    (hready : e.modules.cache.ready.use? k = none) (hstocked : stocked loader c k = false)
    (hsmooth : (e.request ⟨t, loader⟩ m k false).2.refusals = e.refusals) :
    (e.request ⟨t, loader⟩ m k false).2.Contents (Function.update c k (record t m k)) ∧
      (e.request ⟨t, loader⟩ m k false).2.toolchainBuilds = e.toolchainBuilds + 1 ∧
      (e.request ⟨t, loader⟩ m k false).2.corruptEntries =
        e.corruptEntries + if (c k).isSome then 1 else 0 := by
  obtain ⟨hcontents, hbuilds, hcorrupt, hrefusals⟩ := After.building h k
  obtain ⟨raises, result, e', hbuild, hrequest⟩ := request_unready t loader m hquiet hready
  rw [hrequest] at hsmooth ⊢
  obtain ⟨result₁, e₁, hbuild₁, -, hafter⟩ := build_unstocked (t := t) (m := m) hcontents hstocked
    (by rw [hbuild]; exact hsmooth.le.trans hrefusals)
  cases hbuild.symm.trans hbuild₁
  exact ⟨hafter.contents, hbuilds ▸ hafter.builds, hcorrupt ▸ hafter.corrupt⟩

/-! ## Unusable entries -/

/-- Bytes that something could be loaded from are a record and a tail. -/
theorem exists_record_of_usable (h : usable loader k bytes = true) :
    ∃ (a : Artifact) (tail : List UInt8), bytes = a.encode ++ tail ∧ a.Belongs k ∧
      a.entry = Module.entrySymbol ∧ (Loaded.openArtifact loader a).isOk = true := by
  unfold usable at h
  split at h
  · cases h
  · next a ha =>
    obtain ⟨⟨tail, hread⟩, hbelongs⟩ := Artifact.decode_eq_ok.1 ha
    obtain ⟨hentry, hopens⟩ := Bool.and_eq_true_iff.1 h
    exact ⟨a, tail, (Artifact.exact_artifact _ _ _ hread).2, hbelongs, of_decide_eq_true hentry, hopens⟩

/-- A library that can be opened is read from its record. -/
theorem decode_of_opens {library : List UInt8} (hloader : loader [] = none) (hshort : Wire.Short library)
    (hopens : opens loader m k library = true) :
    Artifact.decode k (m.artifact k library).encode = .ok (m.artifact k library) := by
  rw [Module.artifact, Artifact.decode_encode k _ _ hshort, if_neg]
  rintro rfl
  rw [← usable_encode hloader hshort, usable, Module.artifact, Artifact.decode_encode k _ _ hshort,
    if_pos rfl] at hopens
  cases hopens

/-- A library is made and can be opened if something is loaded from scratch. -/
theorem exists_made_of_scratch {l : Loaded} {f : Loaded → Loaded}
    (h : (scratch ⟨t, loader⟩ m k).map f = .ok l) :
    ∃ library, made t m k = some library ∧ opens loader m k library = true := by
  obtain ⟨l', hl', -⟩ := Outcome.map_eq_ok.1 h
  unfold scratch at hl'
  unfold made
  split at hl'
  · cases hl'
  · cases hl'
  · next library hresult =>
    refine ⟨library, by rw [hresult]; rfl, ?_⟩
    unfold opened at hl'
    unfold opens
    cases hopen : Loaded.openArtifact loader (m.artifact k library) with
    | error fault =>
      rw [hopen] at hl'
      cases hl'
    | ok code => rfl

/-- **An unusable entry is recovered from as if it were a miss.** Let a store hold any bytes under the key of
a module that is not in memory, except the record, with any tail, of an artifact that has the present
format, that key and the usual entry, and a library that is not empty and can be opened. A request for the
module, in which the store refuses nothing, gives what it would give if the store held nothing under the
key; it asks the toolchain once, counts one corrupt entry and no hit, and leaves what is stored under
other keys. If it gives a module, the store then holds a record that is read for the key and has the new
library, and if no library is made, nothing. -/
theorem compile_unusable (hm : Assembly.assemble g = .ok m) (hk : key ⟨t, loader⟩ m = .ok k)
    (hloader : loader [] = none) (hshort : ∀ library, made t m k = some library → Wire.Short library)
    (hquiet : e.modules.Quiet) (hready : e.modules.cache.ready.contains k = false)
    (hcontents : e.Contents c) (hstored : c k = some bytes)
    (hunusable : ¬ ∃ (a : Artifact) (tail : List UInt8), bytes = a.encode ++ tail ∧ a.format = 1 ∧
      a.key = k.hex ∧ a.entry = "fusejit_entry" ∧ a.library ≠ [] ∧
      (Loaded.openArtifact loader a).isOk = true)
    (hsmooth : (e.compile ⟨t, loader⟩ g false).2.refusals = e.refusals) :
    (∀ store files, ({ e with store, files } : Engine).Contents (Function.update c k none) →
      (e.compile ⟨t, loader⟩ g false).1 =
        (({ e with store, files } : Engine).compile ⟨t, loader⟩ g false).1) ∧
    (e.compile ⟨t, loader⟩ g false).2.toolchainBuilds = e.toolchainBuilds + 1 ∧
    (e.compile ⟨t, loader⟩ g false).2.corruptEntries = e.corruptEntries + 1 ∧
    (e.compile ⟨t, loader⟩ g false).2.storeHits = e.storeHits ∧
    ∃ c', (e.compile ⟨t, loader⟩ g false).2.Contents c' ∧ (∀ j, j ≠ k → c' j = c j) ∧
      (∀ l, (e.compile ⟨t, loader⟩ g false).1 = .ok l →
        ∃ library record a, made t m k = some library ∧ c' k = some record ∧
          Artifact.decode k record = .ok a ∧ a.library = library) ∧
      (made t m k = none → c' k = none) := by
  have hcompile : ∀ e : Engine, e.compile ⟨t, loader⟩ g false = e.request ⟨t, loader⟩ m k false := by
    intro e
    rw [Engine.compile, hm]
    dsimp only
    rw [hk]
  have huse : e.modules.cache.ready.use? k = none := by
    have hpeek : e.modules.cache.ready.peek k = none := by simpa [Recency.contains] using hready
    rw [Recency.use?, hpeek, Option.map_none]
  have hstocked : stocked loader c k = false := by
    rw [stocked, hstored, Option.any_some, ← Bool.not_eq_true]
    intro husable
    obtain ⟨a, tail, hbytes, hbelongs, hentry, hopens⟩ := exists_record_of_usable husable
    exact hunusable ⟨a, tail, hbytes, hbelongs.format, hbelongs.key, hentry, hbelongs.library, hopens⟩
  rw [hcompile] at hsmooth ⊢
  obtain ⟨hanswer, hhits⟩ := request_unstocked t m hcontents hquiet huse hstocked
  obtain ⟨hcontents', hbuilds, hcorrupt⟩ := request_replaces hcontents hquiet huse hstocked hsmooth
  rw [hstored] at hcorrupt
  refine ⟨fun store files hmissing => ?_, hbuilds, hcorrupt, hhits, _, hcontents',
    fun j hj => Function.update_of_ne hj .., fun l hl => ?_, fun hnone => ?_⟩
  · rw [hcompile, hanswer]
    exact (request_unstocked t m hmissing hquiet huse (stocked_update_self _)).1.symm
  · rw [hanswer, recompiled] at hl
    split at hl
    · cases hl
    obtain ⟨library, hmade, hopens⟩ := exists_made_of_scratch hl
    refine ⟨library, _, m.artifact k library, hmade, ?_, decode_of_opens hloader (hshort library hmade) hopens,
      rfl⟩
    rw [Function.update_self, record, hmade, Option.map_some]
  · rw [Function.update_self, record, hnone, Option.map_none]

/-- An engine whose store holds bytes under a key, and nothing else. -/
def plantedEngine (k : Key) (bytes : List UInt8) : Engine :=
  restart { config := .standard "/tmp", store := some (.memory { entries := [(k, bytes)] }) }

/-- Three bytes under the key of a sum are not loaded; the sum is compiled, and its digest stored instead of
them, as if the store had been empty. -/
theorem compile_unusable_sum :
    ∃ m, Assembly.assemble (sumNamed "total") = .ok m ∧
      ((plantedEngine (m.key gcc) [1, 2, 3]).compile ⟨digestTools.toolchain, lenientLoader⟩
          (sumNamed "total") false).1 =
        (freshEngine.compile ⟨digestTools.toolchain, lenientLoader⟩ (sumNamed "total") false).1 ∧
      ((plantedEngine (m.key gcc) [1, 2, 3]).compile ⟨digestTools.toolchain, lenientLoader⟩
          (sumNamed "total") false).2.corruptEntries = 1 := by
  obtain ⟨m, hm⟩ := exists_assemble_sum
  set e := plantedEngine (m.key gcc) [1, 2, 3]
  have hcontents : e.Contents fun j => if j = m.key gcc then some [1, 2, 3] else none := by
    refine ⟨_, rfl, fun j => ?_⟩
    rw [MemoryStore.read, List.lookup]
    by_cases hj : j = m.key gcc
    · simp [hj]
    · simp [hj, beq_false_of_ne hj]
  have hkey : key ⟨digestTools.toolchain, lenientLoader⟩ m = .ok (m.key gcc) := by
    rw [key, identity_digest]
    rfl
  have hsmooth : (e.compile ⟨digestTools.toolchain, lenientLoader⟩ (sumNamed "total") false).2.refusals =
      e.refusals :=
    ((Part.compile e digestTools.toolchain lenientLoader (sumNamed "total") false).sound ⟨rfl, _, rfl⟩).2
  have hunusable : ¬ ∃ (a : Artifact) (tail : List UInt8), [1, 2, 3] = a.encode ++ tail ∧ a.format = 1 ∧
      a.key = (m.key gcc).hex ∧ a.entry = "fusejit_entry" ∧ a.library ≠ [] ∧
      (Loaded.openArtifact lenientLoader a).isOk = true := by
    rintro ⟨a, tail, hbytes, -⟩
    have hlength := congrArg List.length hbytes
    simp [Artifact.encode, Wire.u32] at hlength
    omega
  obtain ⟨hanswer, -, hcorrupt, -⟩ := compile_unusable hm hkey rfl (short_digest m _)
    (Flight.State.quiet_empty _) rfl hcontents (if_pos rfl) hunusable hsmooth
  refine ⟨m, hm, hanswer _ {} ⟨.memory {}, rfl, fun j => ?_⟩, by rw [hcorrupt]; rfl⟩
  by_cases hj : j = m.key gcc
  · rw [hj, Function.update_self]
    rfl
  · rw [Function.update_of_ne hj, if_neg hj]
    rfl

end Engine

end OpFusion
