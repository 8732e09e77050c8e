/-
  A store is a map from keys to bytes.

  `Contents c`: under each key the store has what the map `c` gives it. Operations may be refused, at any
  stage of a write too, but never lie: what is read is what the map has, and a write or a removal changes
  the map at its key, or, if it is refused, not at all. This is so wherever the root of a store in files
  leads, since the place of a key is a file of no other name (`DiskStore.write_wrote`).
-/
import OpFusion.Proofs.Place
import OpFusion.Proofs.Store.Contents

namespace OpFusion

open Files (Alters)

/-! ## Places of keys -/

theorem Key.isName_shard (k : Key) : Path.IsName k.shard := by
  have hlist : k.shard.toList = Text.hex (k.bytes.take 1) := String.toList_ofList
  have hlength : k.shard.toList.length = 2 := by
    rw [hlist, Text.length_hex, List.length_take, k.length_bytes]
    rfl
  have hdigit : ∀ c ∈ k.shard.toList, c ∈ "0123456789abcdef".toList := by
    rw [hlist]
    exact fun c hc => Text.mem_hex hc
  refine ⟨fun h => absurd (hdigit _ h) (by decide), ?_, ?_, ?_⟩
  · rintro h
    rw [h] at hlength
    cases hlength
  · rintro h
    rw [h] at hlength
    cases hlength
  · rintro h
    exact absurd (hdigit '.' (by rw [h]; decide)) (by decide)

namespace DiskStore

variable {d : DiskStore} {fs fs' : Files} {k j : Key} {bytes : List UInt8}
  {c : Key → Option (List UInt8)}

/-- The place of a key. -/
def place (d : DiskStore) (k : Key) : Path.Location := Path.place (d.path k)

/-- The directories that lead to the place of a key. -/
def way (d : DiskStore) (k : Key) : List Path.Location := Path.wayTo (d.path k)

/-- A place for the temporary files of a key. -/
def Temporary (d : DiskStore) (k : Key) (l : Path.Location) : Prop :=
  ∃ n : Nat, l = Path.place (Path.join (d.dirPath k) (".tmp" ++ toString n))

theorem place_eq (d : DiskStore) (k : Key) :
    d.place k = (Path.place (d.dirPath k)).child (fileName k) :=
  Path.place_join (isName_fileName k) _

theorem way_eq (d : DiskStore) (k : Key) :
    d.way k = (Path.start (d.dirPath k)).way (Path.names (d.dirPath k)) :=
  Path.wayTo_join (isName_fileName k) _

theorem place_inj (h : d.place k = d.place j) : k = j := by
  rw [place_eq, place_eq] at h
  have hnames := congrArg (fun l => l.names.getLast?) h
  exact fileName_inj (by simpa [Path.Location.child] using hnames)

theorem Temporary.ne_place {l : Path.Location} (h : d.Temporary k l) (j : Key) : l ≠ d.place j := by
  obtain ⟨n, rfl⟩ := h
  rw [Path.place_join (isName_temporary n), place_eq]
  intro h
  have hnames := congrArg (fun l => l.names.getLast?) h
  exact temporary_ne_fileName n j (by simpa [Path.Location.child] using hnames)

theorem endsInDirectory_path (d : DiskStore) (k : Key) : Path.endsInDirectory (d.path k) = false :=
  Path.endsInDirectory_join (isName_fileName k) _

/-! ## What a write leaves -/

theorem attempt_eq_ok {trouble : Option Trouble} {stage : Stage} {result : Except Files.Fault Files}
    (h : attempt trouble stage result = .ok fs) : result = .ok fs := by
  unfold attempt at h
  split at h
  · split at h
    · cases h
    · exact h
  · exact h

theorem makeDirectory_alters (d : DiskStore) (trouble : Option Trouble) (fs : Files) (k : Key)
    {touched : Path.Location → Prop} :
    Alters touched (· ∈ d.way k) fs (d.makeDirectory trouble fs k).2 := by
  rw [way_eq]
  unfold makeDirectory
  split
  · next fault made =>
    refine (Alters.ensureDirectories fs _ _).mono (fun _ h => h) fun p hp => ?_
    rw [List.reverse_reverse] at hp
    rw [← List.take_append_drop made (Path.names _), Path.Location.way_append]
    exact List.mem_append_left _ hp
  · exact Alters.makeDirectories fs _

/-- What a write comes to: it is refused, and touches files for its own use once their directory is there,
or the bytes are at the place of the key. In any case it makes directories on the way only. -/
inductive Wrote (d : DiskStore) (fs : Files) (k : Key) (bytes : List UInt8) :
    Except Error Unit × Files → Prop
  | refused {err : Error} {fs' : Files}
      (halters : Alters
        (fun l => d.Temporary k l ∧ ∀ p ∈ d.way k, fs'.node? p = some .directory) (· ∈ d.way k) fs fs') :
      Wrote d fs k bytes (.error err, fs')
  | done {fs' : Files}
      (halters : Alters (fun l => d.Temporary k l ∨ l = d.place k) (· ∈ d.way k) fs fs')
      (hread : fs'.read (d.path k) = .ok bytes) : Wrote d fs k bytes (.ok (), fs')

/-- **A write puts bytes at the place of its key, or nothing at any place of a key.** -/
theorem write_wrote (d : DiskStore) (trouble : Option Trouble) (fs : Files) (k : Key)
    (bytes : List UInt8) : Wrote d fs k bytes (d.write trouble fs k bytes) := by
  have hmade : Alters (fun _ => False) (· ∈ d.way k) fs (d.makeDirectory trouble fs k).2 :=
    d.makeDirectory_alters trouble fs k
  unfold write
  split
  · next fault fs₁ hdir =>
    rw [hdir] at hmade
    exact .refused (hmade.mono (fun _ h => h.elim) fun _ h => h)
  next made fs₁ hdir =>
  rw [hdir] at hmade
  obtain ⟨n, hn⟩ : ∃ n : Nat, fs₁.freshName (d.dirPath k) = ".tmp" ++ toString n := ⟨_, rfl⟩
  dsimp only
  rw [hn]
  set temporary := Path.join (d.dirPath k) (".tmp" ++ toString n) with htemporary
  have hplace : d.Temporary k (Path.place temporary) := ⟨n, rfl⟩
  split
  · exact .refused (hmade.mono (fun _ h => h.elim) fun _ h => h)
  next fs₂ hnew =>
  replace hnew := attempt_eq_ok hnew
  -- a file could be made in the directory, so that the way to it is there
  have hway : ∀ p ∈ d.way k, fs₁.node? p = some .directory := by
    obtain ⟨l, -, hlocate, -⟩ := Files.write_eq_ok hnew
    have hdirs := (Files.locate_eq_ok.1 hlocate).2.1
    rwa [htemporary, Path.wayTo_join (isName_temporary n), ← way_eq] at hdirs
  have hrefused : ∀ {err : Error} {fs' : Files},
      Alters (· = Path.place temporary) (· ∈ d.way k) fs₁ fs' →
      Wrote d fs k bytes (.error err, fs') := by
    intro err fs' h
    refine .refused ((hmade.mono (fun _ h => h.elim) fun _ h => h).trans (h.mono ?_ fun _ h => h))
    rintro l rfl
    exact ⟨hplace, fun p hp => h.directory p (hway p hp)⟩
  have hempty : Alters (· = Path.place temporary) (· ∈ d.way k) fs₁ fs₂ := .write hnew
  split
  · exact hrefused (hempty.trans (.discard _ _))
  next fs₃ hfilled =>
  obtain ⟨_, hfill, hsync⟩ := Outcome.bind_eq_ok.1 hfilled
  cases attempt_eq_ok hsync
  replace hfill := attempt_eq_ok hfill
  have hfull := hempty.trans (.write hfill)
  split
  · exact hrefused (hfull.trans (.discard _ _))
  next fs₄ hrename =>
  obtain ⟨content, fs₅, hread, hwrite, rfl⟩ := Files.rename_eq_ok (attempt_eq_ok hrename)
  cases (Files.read_write hfill).symm.trans hread
  refine .done ?_ ?_
  · have htouched : ∀ l, l = Path.place temporary → d.Temporary k l ∨ l = d.place k := by
      rintro l rfl
      exact Or.inl hplace
    have hmoved : Alters (fun l => d.Temporary k l ∨ l = d.place k) (· ∈ d.way k) fs₃ fs₅ :=
      (Alters.write hwrite).mono (fun l h => Or.inr h) fun _ h => h
    refine (hmade.mono (fun _ h => h.elim) fun _ h => h).trans ?_
    refine (hfull.mono htouched fun _ h => h).trans (hmoved.trans ?_)
    exact (Alters.discard fs₅ temporary).mono htouched fun _ h => h
  · have hdiscard : Alters (· = Path.place temporary) (· ∈ d.way k) fs₅ (fs₅.discard temporary) :=
      .discard fs₅ temporary
    exact hdiscard.read (fun h => hplace.ne_place k h.symm) (Files.read_write hwrite)

/-! ## Contents -/

/-- What there is under a key: bytes that can be read, or no file at its place. -/
def Has (d : DiskStore) (fs : Files) (k : Key) : Option (List UInt8) → Prop
  | some bytes => fs.read (d.path k) = .ok bytes
  | none => ∀ bytes executable, fs.node? (d.place k) ≠ some (.file bytes executable)

/-- Under each key there is what a map gives it. -/
def Contents (d : DiskStore) (fs : Files) (c : Key → Option (List UInt8)) : Prop :=
  ∀ k, d.Has fs k (c k)

variable {v : Option (List UInt8)}

theorem node?_place (h : fs.read (d.path k) = .ok bytes) :
    ∃ executable, fs.node? (d.place k) = some (.file bytes executable) := by
  obtain ⟨l, executable, hlocate, hnode, -⟩ := Files.read_eq_ok.1 h
  rw [(Files.locate_eq_ok.1 hlocate).2.2] at hnode
  exact ⟨executable, hnode⟩

/-- What is read is what there is. -/
theorem Has.read (h : d.Has fs k v) {found : Option (List UInt8)} (hread : d.read fs k = .ok found) :
    found = v := by
  unfold DiskStore.read at hread
  cases v with
  | some bytes =>
    rw [show fs.read (d.path k) = .ok bytes from h] at hread
    cases hread
    rfl
  | none =>
    split at hread
    · next bytes hbytes =>
      obtain ⟨executable, hnode⟩ := node?_place hbytes
      exact absurd hnode (h bytes executable)
    · cases hread
      rfl
    · cases hread

theorem Has.alters {touched made : Path.Location → Prop} (h : d.Has fs k v)
    (ha : Alters touched made fs fs') (hplace : ¬ touched (d.place k)) : d.Has fs' k v := by
  cases v with
  | some bytes => exact ha.read hplace h
  | none =>
    intro bytes executable hnode
    exact h bytes executable ((ha.file _ _ _ hplace).1 hnode)

/-- What holds under one key is put in, what holds under the others stays. -/
theorem Contents.update {touched made : Path.Location → Prop} (h : d.Contents fs c)
    (ha : Alters touched made fs fs') (hother : ∀ j, j ≠ k → ¬ touched (d.place j))
    (hk : d.Has fs' k v) : d.Contents fs' (Function.update c k v) := by
  intro j
  by_cases hj : j = k
  · subst hj
    rwa [Function.update_self]
  · rw [Function.update_of_ne hj]
    exact (h j).alters ha (hother j hj)

/-- **A write changes the map at its key, or not at all.** -/
theorem Contents.write (h : d.Contents fs c) (trouble : Option Trouble) (k : Key) (bytes : List UInt8) :
    d.Contents (d.write trouble fs k bytes).2
      (if (d.write trouble fs k bytes).1.isOk then Function.update c k (some bytes) else c) := by
  have hwrote := d.write_wrote trouble fs k bytes
  generalize d.write trouble fs k bytes = w at hwrote ⊢
  cases hwrote with
  | refused halters => exact fun j => (h j).alters halters fun ht => ht.1.ne_place j rfl
  | done halters hread =>
    refine h.update halters (fun j hj ht => ?_) hread
    rcases ht with ht | ht
    · exact ht.ne_place j rfl
    · exact hj (place_inj ht)

/-- **A removal takes its key from the map, or nothing at all.** -/
theorem Contents.remove (h : d.Contents fs c) (k : Key) :
    d.Contents (d.remove fs k).2 (if (d.remove fs k).1.isOk then Function.update c k none else c) := by
  unfold DiskStore.remove
  split
  · next fs' hremove =>
    obtain ⟨l, bytes, executable, hlocate, hnode, rfl⟩ := Files.remove_eq_ok hremove
    obtain ⟨-, -, rfl⟩ := Files.locate_eq_ok.1 hlocate
    have halters : Alters (· = Path.place (d.path k)) (fun _ => False) fs _ := .remove hremove
    refine h.update halters (fun j hj ht => hj (place_inj ht)) ?_
    intro bytes' executable' hnode'
    rw [Files.node?_erase] at hnode'
    split at hnode'
    · cases hnode'
    · next hroot =>
      have hnames : (d.place k).names ≠ [] := by simp [place_eq, Path.Location.child]
      exact hroot ⟨rfl, hnames⟩
  · next hmissing =>
    have hk : c k = none := by
      cases hk : c k with
      | none => rfl
      | some bytes =>
        have hhas : d.Has fs k (some bytes) := hk ▸ h k
        obtain ⟨fs', hremove⟩ := Files.exists_remove hhas
        rw [hremove] at hmissing
        cases hmissing
    show d.Contents fs (Function.update c k none)
    rwa [← hk, Function.update_eq_self]
  · exact h

end DiskStore

namespace Store

variable {s : Store} {fs : Files} {k : Key} {c : Key → Option (List UInt8)}

/-- Under each key there is what a map gives it. -/
def Contents (fs : Files) (c : Key → Option (List UInt8)) : Store → Prop
  | memory s => ∀ k, s.read k = c k
  | disk d => d.Contents fs c

theorem Contents.read (h : s.Contents fs c) {found : Option (List UInt8)}
    (hread : s.read fs k = .ok found) : found = c k := by
  cases s with
  | memory s =>
    cases hread
    exact h k
  | disk d => exact (h k).read hread

theorem Contents.write (h : s.Contents fs c) (k : Key) (bytes : List UInt8) :
    (s.write fs k bytes).2.1.Contents (s.write fs k bytes).2.2
      (if (s.write fs k bytes).1.isOk then Function.update c k (some bytes) else c) := by
  cases s with
  | memory s =>
    show ∀ j, (s.write k bytes).read j = Function.update c k (some bytes) j
    intro j
    rw [MemoryStore.read_write, Function.update_apply, h j]
  | disk d => exact DiskStore.Contents.write h none k bytes

theorem Contents.remove (h : s.Contents fs c) (k : Key) :
    (s.remove fs k).2.1.Contents (s.remove fs k).2.2
      (if (s.remove fs k).1.isOk then Function.update c k none else c) := by
  cases s with
  | memory s =>
    show ∀ j, (s.remove k).read j = Function.update c k none j
    intro j
    rw [MemoryStore.read_remove, Function.update_apply, h j]
  | disk d => exact DiskStore.Contents.remove h k

end Store

end OpFusion
