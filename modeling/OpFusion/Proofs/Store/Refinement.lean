/-
  A store in files answers as a store in memory does.

  `Open`: the files and directories that others keep do not stand in the way of the store. Then reading,
  looking and removing never fail (`Open.reach`), a write fails if one of its stages does and not
  otherwise (`Open.write_eq_ok`), and all of them leave the store open. So a run of operations on files
  answers as the same run without the failed writes does in memory (`Tracks.performAll`).
-/
import OpFusion.Proofs.Store.Mapping

namespace OpFusion

open Files (Alters)

/-! ## Runs of operations -/

namespace Store

/-- What is asked of a store. A stage of a write may be in trouble. -/
inductive Operation where
  | write (k : Key) (bytes : List UInt8) (trouble : Option DiskStore.Trouble)
  | read (k : Key)
  | contains (k : Key)
  | remove (k : Key)

/-- The key that an operation is about. -/
def Operation.key : Operation → Key
  | write k _ _ | read k | contains k | remove k => k

/-- What a store answers. -/
inductive Answer where
  | written
  | found (bytes : Option (List UInt8))
  | said (truth : Bool)
  deriving DecidableEq

/-- A write that failed. -/
def isFailedWrite : Operation × Except Error Answer → Bool
  | (.write _ _ _, .error _) => true
  | _ => false

end Store

open Store (Operation Answer)

/-- Performs an operation on files. -/
def DiskStore.perform (d : DiskStore) (fs : Files) : Operation → Except Error Answer × Files
  | .write k bytes trouble =>
    ((d.write trouble fs k bytes).1.map fun _ => .written, (d.write trouble fs k bytes).2)
  | .read k => ((d.read fs k).map .found, fs)
  | .contains k => (.ok (.said (d.contains fs k)), fs)
  | .remove k => ((d.remove fs k).1.map .said, (d.remove fs k).2)

/-- Performs operations on files one after another. -/
def DiskStore.performAll (d : DiskStore) (fs : Files) :
    List Operation → List (Except Error Answer) × Files
  | [] => ([], fs)
  | op :: ops =>
    let (answer, fs) := d.perform fs op
    let (answers, fs) := d.performAll fs ops
    (answer :: answers, fs)

/-- Performs an operation in memory. -/
def MemoryStore.perform (m : MemoryStore) : Operation → Answer × MemoryStore
  | .write k bytes _ => (.written, m.write k bytes)
  | .read k => (.found (m.read k), m)
  | .contains k => (.said (m.contains k), m)
  | .remove k => (.said (m.contains k), m.remove k)

/-- Performs operations in memory one after another. -/
def MemoryStore.performAll (m : MemoryStore) : List Operation → List Answer × MemoryStore
  | [] => ([], m)
  | op :: ops =>
    let (answer, m) := m.perform op
    let (answers, m) := m.performAll ops
    (answer :: answers, m)

namespace DiskStore

/-- The operations of a run on files with their answers, without the writes that failed. -/
def kept (d : DiskStore) (fs : Files) (ops : List Operation) : List (Operation × Except Error Answer) :=
  (ops.zip (d.performAll fs ops).1).filter fun a => !Store.isFailedWrite a

variable {d : DiskStore} {fs fs' : Files} {k j : Key} {bytes : List UInt8}
  {c : Key → Option (List UInt8)}

/-! ## Open stores -/

/-- Files in which nothing stands in the way of a store: the paths of its keys can be followed, what is on
the way to them is no file and no place of a key, and at the places of keys are files that can be reached,
or nothing. -/
structure Open (d : DiskStore) (fs : Files) : Prop where
  valid : ∀ k, Path.Valid (d.path k)
  apart : ∀ k j, d.place k ∉ d.way j
  way : ∀ k, ∀ p ∈ d.way k, ∀ content executable, fs.node? p ≠ some (.file content executable)
  free : ∀ k, fs.node? (d.place k) ≠ some .directory
  settled : ∀ k content executable, fs.node? (d.place k) = some (.file content executable) →
    ∀ p ∈ d.way k, fs.node? p = some .directory

theorem Open.locate (h : d.Open fs) (k : Key) :
    fs.locate (d.path k) = .ok (d.place k) ∨ fs.locate (d.path k) = .error .notFound :=
  Files.locate_of_clear (h.valid k) (h.way k)

/-- **The place of a key is reached if there is something under the key, and not found otherwise.** -/
theorem Open.reach (h : d.Open fs) (hc : d.Contents fs c) (k : Key) :
    (∃ bytes executable, c k = some bytes ∧
      fs.reach (d.path k) = .ok (d.place k, .file bytes executable)) ∨
      (c k = none ∧ fs.reach (d.path k) = .error .notFound) := by
  have hhas := hc k
  cases hk : c k with
  | some bytes =>
    rw [hk] at hhas
    obtain ⟨l, executable, hlocate, hnode, hend⟩ := Files.read_eq_ok.1 hhas
    obtain ⟨-, -, rfl⟩ := Files.locate_eq_ok.1 hlocate
    exact Or.inl ⟨bytes, executable, rfl, Files.reach_eq_ok.2 ⟨hlocate, hnode, Or.inr hend⟩⟩
  | none =>
    rw [hk] at hhas
    refine Or.inr ⟨rfl, ?_⟩
    unfold Files.reach
    rcases h.locate k with hlocate | hlocate
    · rw [hlocate]
      dsimp only
      split
      · next hnode => exact absurd hnode (h.free k)
      · next content executable hnode => exact absurd hnode (hhas content executable)
      · rfl
    · rw [hlocate]

theorem Open.read (h : d.Open fs) (hc : d.Contents fs c) (k : Key) : d.read fs k = .ok (c k) := by
  rcases h.reach hc k with ⟨bytes, executable, hk, hreach⟩ | ⟨hk, hreach⟩
  · rw [DiskStore.read, Files.read, hreach, hk]
  · rw [DiskStore.read, Files.read, hreach, hk]

theorem Open.contains (h : d.Open fs) (hc : d.Contents fs c) (k : Key) :
    d.contains fs k = (c k).isSome := by
  unfold DiskStore.contains Files.isFile
  rcases h.reach hc k with ⟨bytes, executable, hk, hreach⟩ | ⟨hk, hreach⟩
  · simp only [hreach, hk, Option.isSome_some]
  · simp only [hreach, hk, Option.isSome_none]

theorem Open.remove_eq_ok (h : d.Open fs) (hc : d.Contents fs c) (k : Key) :
    (d.remove fs k).1 = .ok (c k).isSome := by
  unfold DiskStore.remove Files.remove
  rcases h.reach hc k with ⟨bytes, executable, hk, hreach⟩ | ⟨hk, hreach⟩
  · simp only [hreach, hk, Option.isSome_some]
  · simp only [hreach, hk, Option.isSome_none]

/-- Where nothing stands in the way, a store has what is read from it. -/
theorem Open.contents (h : d.Open fs) (hread : ∀ k, d.read fs k = .ok (c k)) : d.Contents fs c := by
  intro k
  have hk := hread k
  unfold DiskStore.read at hk
  split at hk
  · next bytes hbytes =>
    rw [← Except.ok.inj hk]
    exact hbytes
  · next hmissing =>
    rw [← Except.ok.inj hk]
    intro bytes executable hnode
    have hlocate : fs.locate (d.path k) = .ok (d.place k) :=
      Files.locate_eq_ok.2 ⟨h.valid k, h.settled k bytes executable hnode, rfl⟩
    rw [Files.read_eq_ok.2 ⟨_, executable, hlocate, hnode, d.endsInDirectory_path k⟩] at hmissing
    cases hmissing
  · cases hk

/-! ## Operations leave a store open -/

/-- The way to a key leads through the root to the directory of the key. -/
theorem way_eq_concat (d : DiskStore) (k : Key) :
    d.way k = (Path.start d.root).way (Path.names d.root) ++ [(Path.place d.root).child k.shard] := by
  rw [way_eq, dirPath, Path.start_join k.isName_shard, Path.names_join k.isName_shard,
    Path.Location.way_concat, Path.Location.along_concat _ _ k.isName_shard.ne_above, Path.place]

/-- The ways of two keys differ in the last directory only. -/
theorem mem_way {p : Path.Location} (hp : p ∈ d.way j) :
    p ∈ d.way k ∨ p = (Path.place d.root).child j.shard := by
  rw [way_eq_concat, List.mem_append, List.mem_singleton] at hp
  rw [way_eq_concat d k]
  exact hp.imp_left fun hp => List.mem_append_left _ hp

/-- A temporary file is in the directory of its key, and no directory beside that one. -/
theorem Temporary.ne_shard {l : Path.Location} (h : d.Temporary k l) (j : Key) :
    l ≠ (Path.place d.root).child j.shard := by
  obtain ⟨n, rfl⟩ := h
  rw [Path.place_join (isName_temporary n), dirPath, Path.place_join k.isName_shard]
  intro h
  have hlength := congrArg (fun l => l.names.length) h
  simp [Path.Location.child] at hlength

/-- What a store needs is kept if only places of keys, and temporary files in directories that are there,
are touched. -/
theorem Open.alters (h : d.Open fs) {touched : Path.Location → Prop}
    (ha : Alters touched (· ∈ d.way k) fs fs')
    (htouched : ∀ l, touched l → (∃ j, l = d.place j) ∨
      (d.Temporary k l ∧ ∀ p ∈ d.way k, fs'.node? p = some .directory))
    (hplaces : ∀ j content executable, touched (d.place j) →
      fs'.node? (d.place j) = some (.file content executable) →
      ∀ p ∈ d.way j, fs'.node? p = some .directory) : d.Open fs' where
  valid := h.valid
  apart := h.apart
  way j p hp content executable hnode := by
    by_cases ht : touched p
    · rcases htouched p ht with ⟨i, rfl⟩ | ⟨htemporary, hway⟩
      · exact h.apart i j hp
      · rcases mem_way (k := k) hp with hp | rfl
        · rw [hway p hp] at hnode
          cases hnode
        · exact htemporary.ne_shard j rfl
    · exact h.way j p hp content executable ((ha.file p content executable ht).1 hnode)
  free j hnode := (ha.made _ hnode).elim (h.free j) (h.apart j k)
  settled j content executable hnode := by
    by_cases ht : touched (d.place j)
    · exact hplaces j content executable ht hnode
    · have hbefore := h.settled j content executable ((ha.file _ content executable ht).1 hnode)
      exact fun p hp => ha.directory p (hbefore p hp)

theorem Open.write (h : d.Open fs) (trouble : Option Trouble) (k : Key) (bytes : List UInt8) :
    d.Open (d.write trouble fs k bytes).2 := by
  have hwrote := d.write_wrote trouble fs k bytes
  generalize d.write trouble fs k bytes = w at hwrote ⊢
  cases hwrote with
  | refused halters =>
    exact h.alters halters (fun l hl => Or.inr hl) fun j _ _ ht => absurd rfl (ht.1.ne_place j)
  | done halters hread =>
    obtain ⟨l, executable, hlocate, -⟩ := Files.read_eq_ok.1 hread
    have hway := (Files.locate_eq_ok.1 hlocate).2.1
    refine h.alters halters (fun l hl => ?_) fun j content executable ht hnode => ?_
    · rcases hl with hl | rfl
      · exact Or.inr ⟨hl, hway⟩
      · exact Or.inl ⟨k, rfl⟩
    · rcases ht with ht | ht
      · exact absurd rfl (ht.ne_place j)
      · rw [place_inj ht]
        exact hway

theorem Open.remove (h : d.Open fs) (k : Key) : d.Open (d.remove fs k).2 := by
  unfold DiskStore.remove
  split
  · next fs' hremove =>
    have halters : Alters (· = d.place k) (· ∈ d.way k) fs fs' := .remove hremove
    obtain ⟨l, bytes, executable, hlocate, hnode, rfl⟩ := Files.remove_eq_ok hremove
    have hway := (Files.locate_eq_ok.1 hlocate).2.1
    refine h.alters halters (fun l hl => Or.inl ⟨k, hl⟩) fun j content executable ht hnode => ?_
    rw [place_inj ht]
    exact fun p hp => halters.directory p (hway p hp)
  · exact h
  · exact h

/-! ## Temporary files -/

theorem utf8ByteSize_eq_length {s : String} (h : ∀ c ∈ s.toList, c.utf8Size = 1) :
    s.utf8ByteSize = s.toList.length := by
  have hlen : ∀ l : List Char, (∀ c ∈ l, c.utf8Size = 1) → String.utf8Len l = l.length := by
    intro l hl
    induction l with
    | nil => rfl
    | cons c l ih =>
      rw [List.forall_mem_cons] at hl
      rw [String.utf8Len_cons, ih hl.2, hl.1, List.length_cons]
  rw [← String.utf8Len_toList, hlen s.toList h]

theorem utf8ByteSize_hex (bytes : List UInt8) :
    (String.ofList (Text.hex bytes)).utf8ByteSize = 2 * bytes.length := by
  rw [utf8ByteSize_eq_length, String.toList_ofList, Text.length_hex]
  intro c hc
  rw [String.toList_ofList] at hc
  have hdigits : ("0123456789abcdef".toList.all fun c => c.utf8Size == 1) = true := by decide
  simpa using List.all_eq_true.1 hdigits c (Text.mem_hex hc)

theorem utf8ByteSize_shard (k : Key) : k.shard.utf8ByteSize = 2 := by
  rw [Key.shard, utf8ByteSize_hex, List.length_take, k.length_bytes]
  rfl

theorem utf8ByteSize_fileName (k : Key) : (fileName k).utf8ByteSize = 73 := by
  have hhex : k.hex.utf8ByteSize = 64 := by
    rw [Key.hex, Key.hexChars, utf8ByteSize_hex, k.length_bytes]
  rw [fileName, String.utf8ByteSize_append, hhex]
  rfl

theorem utf8ByteSize_temporary {n : Nat} (h : n < 10 ^ 64) :
    (".tmp" ++ toString n).utf8ByteSize ≤ 68 := by
  have hdigits : (toString n).utf8ByteSize ≤ 64 := by
    rw [Nat.toString_eq_ofList_toDigits, utf8ByteSize_eq_length, String.toList_ofList]
    · exact (Nat.length_toDigits_le_iff (by decide) (by decide)).2 h
    · intro c hc
      rw [String.toList_ofList] at hc
      have hdigit := Nat.isDigit_of_mem_toDigits (by decide) (by decide) hc
      rw [Char.utf8Size_eq_one_iff]
      simp only [Char.isDigit, Bool.and_eq_true, decide_eq_true_eq] at hdigit
      exact UInt32.le_trans hdigit.2 (by decide)
  rw [String.utf8ByteSize_append]
  have hstem : ".tmp".utf8ByteSize = 4 := by decide
  omega

theorem temporary_inj {m n : Nat} (h : ".tmp" ++ toString m = ".tmp" ++ toString n) : m = n := by
  have hlist := congrArg String.toList h
  rw [String.toList_append, String.toList_append] at hlist
  exact Nat.repr_injective (String.toList_injective (List.append_cancel_left hlist))

/-- **Of more names than there are entries one is free.** -/
theorem exists_freshName (fs : Files) (dir : String) :
    ∃ n ≤ fs.entries.length, fs.freshName dir = ".tmp" ++ toString n ∧
      ∀ found, fs.reach (Path.join dir (".tmp" ++ toString n)) ≠ .ok found := by
  set taken : Nat → Bool := fun n =>
    (fs.reach (Path.join dir (".tmp" ++ toString n))).toOption.isSome with htaken
  have htaken_iff : ∀ n, taken n = true ↔
      ∃ found, fs.reach (Path.join dir (".tmp" ++ toString n)) = .ok found := by
    intro n
    show (fs.reach (Path.join dir (".tmp" ++ toString n))).toOption.isSome = true ↔ _
    cases fs.reach (Path.join dir (".tmp" ++ toString n)) <;> simp [Except.toOption]
  have hfresh : fs.freshName dir =
      ".tmp" ++ toString (((List.range (fs.entries.length + 1)).find? (!taken ·)).getD 0) := rfl
  cases hfind : (List.range (fs.entries.length + 1)).find? (!taken ·) with
  | some n =>
    rw [hfind] at hfresh
    have hmem := List.mem_range.1 (List.mem_of_find?_eq_some hfind)
    have hn : taken n = false := by simpa using List.find?_some hfind
    refine ⟨n, by omega, hfresh, fun found hreach => ?_⟩
    rw [(htaken_iff n).2 ⟨found, hreach⟩] at hn
    cases hn
  | none =>
    -- otherwise there is an entry for each of the names, which are more than the entries
    exfalso
    set place : Nat → Path.Location := fun n => (Path.place dir).child (".tmp" ++ toString n) with hplace
    have hinj : Function.Injective place := by
      intro m n h
      have hnames := congrArg (fun l => l.names.getLast?) h
      exact temporary_inj (by simpa [hplace, Path.Location.child] using hnames)
    have hsub : (List.range (fs.entries.length + 1)).map place ⊆ fs.entries.map Prod.fst := by
      intro l hl
      obtain ⟨n, hn, rfl⟩ := List.mem_map.1 hl
      obtain ⟨found, hreach⟩ := (htaken_iff n).1 (by simpa using List.find?_eq_none.1 hfind n hn)
      obtain ⟨hlocate, hnode, -⟩ := Files.reach_eq_ok.1 hreach
      rw [(Files.locate_eq_ok.1 hlocate).2.2, Path.place_join (isName_temporary n), Files.node?,
        if_neg (by simp [Path.Location.child])] at hnode
      obtain ⟨entry, hentry, heq⟩ := List.lookup_isSome_iff.1 (Option.isSome_of_eq_some hnode)
      rw [beq_iff_eq] at heq
      exact List.mem_map.2 ⟨entry, hentry, heq.symm⟩
    have hlength := (List.subperm_of_subset (List.nodup_range.map hinj) hsub).length_le
    simp at hlength

/-! ## Writes that succeed -/

theorem stage_ne_of_attempt {t : Trouble} {stage : Stage} {result : Except Files.Fault Files}
    (h : attempt (some t) stage result = .ok fs) : t.stage ≠ stage := by
  intro hstage
  rw [attempt, if_pos hstage] at h
  cases h

/-- A write with a stage in trouble fails. -/
theorem write_of_trouble (d : DiskStore) (t : Trouble) (fs : Files) (k : Key) (bytes : List UInt8) :
    (d.write (some t) fs k bytes).1.isOk = false := by
  unfold write
  split
  · rfl
  next made fs₁ hdir =>
  dsimp only
  split
  · rfl
  next fs₂ hnew =>
  split
  · rfl
  next fs₃ hfilled =>
  split
  · rfl
  next fs₄ hrename =>
  -- no stage is left for the trouble
  obtain ⟨_, hfill, hsync⟩ := Outcome.bind_eq_ok.1 hfilled
  obtain ⟨stage, fault, made⟩ := t
  cases stage with
  | makeDirectory => cases hdir
  | makeTemporary => exact absurd rfl (stage_ne_of_attempt hnew)
  | fill => exact absurd rfl (stage_ne_of_attempt hfill)
  | sync => exact absurd rfl (stage_ne_of_attempt hsync)
  | rename => exact absurd rfl (stage_ne_of_attempt hrename)

/-- The directory of a key can be made, and temporary files in it, if their names are not too long. -/
theorem valid_temporary (hvalid : Path.Valid (d.path k)) {n : Nat} (hn : n < 10 ^ 64) :
    Path.Valid (Path.join (d.dirPath k) (".tmp" ++ toString n)) := by
  obtain ⟨hbase, -, hlength, hshort, hname⟩ := (Path.valid_join (isName_fileName k) _).1 hvalid
  have hsize := utf8ByteSize_temporary hn
  have hnul : '\x00' ∉ (".tmp" ++ toString n).toList := by
    rw [String.toList_append, List.mem_append, Nat.toString_eq_ofList_toDigits]
    rintro (hstem | hdigit)
    · exact absurd hstem (by decide)
    · rw [String.toList_ofList] at hdigit
      exact absurd (Nat.isDigit_of_mem_toDigits (by decide) (by decide) hdigit) (by decide)
  obtain ⟨between, -, heq⟩ := Path.exists_join_eq (d.dirPath k)
  rw [heq, String.utf8ByteSize_append, utf8ByteSize_fileName] at hlength
  rw [utf8ByteSize_fileName] at hname
  refine (Path.valid_join (isName_temporary n) _).2 ⟨hbase, hnul, ?_, hshort, by omega⟩
  rw [heq, String.utf8ByteSize_append]
  omega

/-- **A write with no stage in trouble succeeds**, unless there are too many files to name one more. -/
theorem Open.write_eq_ok (h : d.Open fs) (hsize : (d.makeDirectory none fs k).2.entries.length < 10 ^ 64)
    (bytes : List UInt8) : (d.write none fs k bytes).1 = .ok () := by
  obtain ⟨hbase, -, hlength, hshort, -⟩ := (Path.valid_join (isName_fileName k) _).1 (h.valid k)
  obtain ⟨between, -, heq⟩ := Path.exists_join_eq (d.dirPath k)
  rw [heq, String.utf8ByteSize_append, String.utf8ByteSize_append] at hlength
  have hclear := h.way k
  rw [way_eq] at hclear
  obtain ⟨fs₁, hmade, hdirs⟩ := Files.makeDirectories_ok hbase (by omega) hshort hclear
  have hmake : d.makeDirectory none fs k = (.ok (), fs₁) := hmade
  have halters : Alters (fun _ => False) (· ∈ d.way k) fs (d.makeDirectory none fs k).2 :=
    d.makeDirectory_alters none fs k
  rw [hmake] at halters hsize
  rw [← way_eq] at hdirs
  dsimp only at hsize
  obtain ⟨n, hn, hname, hfree⟩ := exists_freshName fs₁ (d.dirPath k)
  set temporary := Path.join (d.dirPath k) (".tmp" ++ toString n) with htemporary
  have hend : Path.endsInDirectory temporary = false := Path.endsInDirectory_join (isName_temporary n) _
  have hplace : d.Temporary k (Path.place temporary) := ⟨n, rfl⟩
  -- the new name leads to a place where there is nothing
  have hlocate : fs₁.locate temporary = .ok (Path.place temporary) := by
    refine Files.locate_eq_ok.2 ⟨valid_temporary (h.valid k) (by omega), ?_, rfl⟩
    rw [htemporary, Path.wayTo_join (isName_temporary n), ← way_eq]
    exact hdirs
  have hnone : fs₁.node? (Path.place temporary) ≠ some .directory := fun hnode =>
    hfree _ (Files.reach_eq_ok.2 ⟨hlocate, hnode, Or.inl rfl⟩)
  obtain ⟨fs₂, hnew⟩ := Files.exists_write hlocate hend hnone []
  have hempty : Alters (· = Path.place temporary) (fun _ => False) fs₁ fs₂ := .write hnew
  obtain ⟨fs₃, hfill⟩ := Files.exists_write (hempty.locate hlocate) hend
    (fun hnode => (hempty.made _ hnode).elim hnone id) bytes
  have hfull := hempty.trans (.write hfill)
  have htarget : fs₃.locate (d.path k) = .ok (d.place k) :=
    Files.locate_eq_ok.2 ⟨h.valid k, fun p hp => hfull.directory p (hdirs p hp), rfl⟩
  have hfileless : fs₃.node? (d.place k) ≠ some .directory := by
    intro hnode
    rcases hfull.made _ hnode with hnode | hnode
    · exact (halters.made _ hnode).elim (h.free k) (h.apart k k)
    · exact hnode
  obtain ⟨fs₄, hmove⟩ := Files.exists_write htarget (d.endsInDirectory_path k) hfileless bytes
  have hrename : fs₃.rename temporary (d.path k) = .ok (fs₄.discard temporary) := by
    rw [Files.rename, Files.read_write hfill]
    show (fs₃.write (d.path k) bytes >>= fun fs => pure (fs.discard temporary)) = _
    rw [hmove]
    rfl
  have hfilled : (fs₂.write temporary bytes >>= fun fs => .ok fs) = .ok fs₃ := by
    rw [hfill]
    rfl
  simp only [DiskStore.write, hmake, hname, ← htemporary, attempt, hnew, hfilled, hrename]

/-! ## Runs -/

/-- A store in memory has what an open store in files has. -/
structure Tracks (d : DiskStore) (fs : Files) (m : MemoryStore) : Prop where
  isOpen : d.Open fs
  contents : d.Contents fs m.read

variable {m : MemoryStore}

/-- **An operation is a write that failed, and changed nothing, or does what it does in memory.** -/
theorem Tracks.perform (h : d.Tracks fs m) (op : Operation) :
    (Store.isFailedWrite (op, (d.perform fs op).1) = true ∧ d.Tracks (d.perform fs op).2 m) ∨
    (Store.isFailedWrite (op, (d.perform fs op).1) = false ∧
      (d.perform fs op).1 = .ok (m.perform op).1 ∧ d.Tracks (d.perform fs op).2 (m.perform op).2) := by
  cases op with
  | write k bytes trouble =>
    have hopen := h.isOpen.write trouble k bytes
    have hcontents := h.contents.write trouble k bytes
    unfold DiskStore.perform
    dsimp only
    cases hwrite : (d.write trouble fs k bytes).1 with
    | error err =>
      rw [hwrite] at hcontents
      exact Or.inl ⟨rfl, hopen, hcontents⟩
    | ok done =>
      rw [hwrite] at hcontents
      refine Or.inr ⟨rfl, rfl, hopen, ?_⟩
      have hread : (m.write k bytes).read = Function.update m.read k (some bytes) := by
        funext j
        rw [MemoryStore.read_write, Function.update_apply]
      rw [MemoryStore.perform, hread]
      exact hcontents
  | read k =>
    refine Or.inr ⟨?_, ?_, h⟩
    · rw [DiskStore.perform, h.isOpen.read h.contents]
      rfl
    · rw [DiskStore.perform, h.isOpen.read h.contents]
      rfl
  | contains k =>
    refine Or.inr ⟨rfl, ?_, h⟩
    rw [DiskStore.perform, h.isOpen.contains h.contents]
    rfl
  | remove k =>
    have hcontents := h.contents.remove k
    have hanswer := h.isOpen.remove_eq_ok h.contents k
    rw [hanswer] at hcontents
    refine Or.inr ⟨?_, ?_, h.isOpen.remove k, ?_⟩
    · rw [DiskStore.perform, hanswer]
      rfl
    · rw [DiskStore.perform, hanswer]
      rfl
    · have hread : (m.remove k).read = Function.update m.read k none := by
        funext j
        rw [MemoryStore.read_remove, Function.update_apply]
      rw [MemoryStore.perform, hread]
      exact hcontents

theorem kept_cons (d : DiskStore) (fs : Files) (op : Operation) (ops : List Operation) :
    d.kept fs (op :: ops) =
      if Store.isFailedWrite (op, (d.perform fs op).1) then d.kept (d.perform fs op).2 ops
      else (op, (d.perform fs op).1) :: d.kept (d.perform fs op).2 ops := by
  unfold kept
  rw [performAll, List.zip_cons_cons, List.filter_cons]
  cases Store.isFailedWrite (op, (d.perform fs op).1) <;> rfl

/-- By induction on the run: a failed write is passed over in memory. -/
theorem Tracks.performAll (h : d.Tracks fs m) (ops : List Operation) :
    (d.kept fs ops).map Prod.snd =
        (m.performAll ((d.kept fs ops).map Prod.fst)).1.map Except.ok ∧
      d.Tracks (d.performAll fs ops).2 (m.performAll ((d.kept fs ops).map Prod.fst)).2 := by
  induction ops generalizing fs m with
  | nil => exact ⟨rfl, h⟩
  | cons op ops ih =>
    rw [kept_cons]
    rcases h.perform op with ⟨hfailed, hnext⟩ | ⟨hfailed, hanswer, hnext⟩
    · rw [if_pos hfailed]
      exact ih hnext
    · rw [if_neg (by simp [hfailed])]
      obtain ⟨hanswers, hlast⟩ := ih hnext
      refine ⟨?_, hlast⟩
      rw [List.map_cons, List.map_cons, MemoryStore.performAll, hanswers, hanswer]
      rfl

theorem Tracks.read (h : d.Tracks fs m) (k : Key) : d.read fs k = .ok (m.read k) :=
  h.isOpen.read h.contents k

theorem read_perform_of_ne (m : MemoryStore) {op : Operation} (hj : j ≠ op.key) :
    (m.perform op).2.read j = m.read j := by
  cases op with
  | write k bytes trouble => exact (MemoryStore.read_write m k j bytes).trans (if_neg hj)
  | read k => rfl
  | contains k => rfl
  | remove k => exact (MemoryStore.read_remove m k j).trans (if_neg hj)

/-- **A store in files refines a store in memory.** In a run of operations on an open store in which any
stage of any write may fail, the answers are those of the store in memory to the operations that are left
when the failed writes are dropped, and then both have the same bytes under each key. At any point of a
run, a write that fails leaves what is read under all keys, an operation leaves what is read under other
keys, and a write fails only if one of its stages is in trouble, as long as there are names for files. -/
theorem performAll_refines (hopen : d.Open fs) (hsame : ∀ k, d.read fs k = .ok (m.read k))
    (ops : List Operation) :
    (d.kept fs ops).map Prod.snd = (m.performAll ((d.kept fs ops).map Prod.fst)).1.map Except.ok ∧
    (∀ k, d.read (d.performAll fs ops).2 k =
      .ok ((m.performAll ((d.kept fs ops).map Prod.fst)).2.read k)) ∧
    ∀ fs', fs' = (d.performAll fs ops).2 →
      (∀ op, Store.isFailedWrite (op, (d.perform fs' op).1) = true →
        ∀ j, d.read (d.perform fs' op).2 j = d.read fs' j) ∧
      (∀ op j, j ≠ op.key → d.read (d.perform fs' op).2 j = d.read fs' j) ∧
      ∀ k bytes trouble, (d.makeDirectory none fs' k).2.entries.length < 10 ^ 64 →
        ((d.write trouble fs' k bytes).1.isOk = true ↔ trouble = none) := by
  have htracks : d.Tracks fs m := ⟨hopen, hopen.contents hsame⟩
  obtain ⟨hanswers, hlast⟩ := htracks.performAll ops
  refine ⟨hanswers, hlast.read, ?_⟩
  rintro fs' rfl
  refine ⟨?_, ?_, ?_⟩
  · intro op hfailed j
    rcases hlast.perform op with ⟨-, hnext⟩ | ⟨hkept, -⟩
    · rw [hnext.read, hlast.read]
    · rw [hkept] at hfailed
      cases hfailed
  · intro op j hj
    rcases hlast.perform op with ⟨-, hnext⟩ | ⟨-, -, hnext⟩
    · rw [hnext.read, hlast.read]
    · rw [hnext.read, hlast.read, read_perform_of_ne _ hj]
  · intro k bytes trouble hroom
    cases trouble with
    | none => simp [hlast.isOpen.write_eq_ok hroom bytes, Except.isOk, Except.toBool]
    | some t => simp [d.write_of_trouble t _ k bytes]

theorem node?_empty_ne_file (l : Path.Location) (content : List UInt8) (executable : Bool) :
    ({} : Files).node? l ≠ some (.file content executable) := by
  unfold Files.node?
  split <;> simp

/-- A store that nobody wrote to is open where there is nothing at all, if its root is not too long and
does not lead through directories far below it. -/
theorem open_empty (hvalid : Path.Valid d.root) (hlength : d.root.utf8ByteSize + 77 ≤ Path.maxLength)
    (hway : ∀ p ∈ (Path.start d.root).way (Path.names d.root),
      p.names.length ≤ (Path.place d.root).names.length + 1) : d.Open {} := by
  have hplace : ∀ k, (d.place k).names.length = (Path.place d.root).names.length + 2 := by
    intro k
    rw [place_eq, dirPath, Path.place_join k.isName_shard]
    simp [Path.Location.child]
  have hsize : ∀ base name,
      (Path.join base name).utf8ByteSize ≤ base.utf8ByteSize + 1 + name.utf8ByteSize := by
    intro base name
    obtain ⟨between, hbetween, heq⟩ := Path.exists_join_eq base
    have hshort : between.utf8ByteSize ≤ 1 := by rcases hbetween with rfl | rfl <;> decide
    rw [heq, String.utf8ByteSize_append, String.utf8ByteSize_append]
    omega
  have hdigits : ∀ bytes : List UInt8, '\x00' ∉ (String.ofList (Text.hex bytes)).toList := by
    intro bytes hmem
    rw [String.toList_ofList] at hmem
    exact absurd (Text.mem_hex hmem) (by decide)
  refine ⟨?_, ?_, ?_, ?_, ?_⟩
  · intro k
    have hdir : Path.Valid (d.dirPath k) := by
      have hlong := hsize d.root k.shard
      have hshard := utf8ByteSize_shard k
      refine (Path.valid_join k.isName_shard _).2 ⟨hvalid.noNul, hdigits _, by omega, hvalid.names, ?_⟩
      rw [hshard]
      decide
    have hlong := (hsize (d.dirPath k) (fileName k)).trans
      (Nat.add_le_add_right (Nat.add_le_add_right (hsize d.root k.shard) 1) _)
    rw [utf8ByteSize_shard, utf8ByteSize_fileName] at hlong
    refine (Path.valid_join (isName_fileName k) _).2
      ⟨hdir.noNul, ?_, by omega, hdir.names, by rw [utf8ByteSize_fileName]; decide⟩
    rw [fileName, String.toList_append, List.mem_append]
    exact fun hmem => hmem.elim (hdigits _) (by decide)
  · intro k j hmem
    rw [way_eq_concat, List.mem_append, List.mem_singleton] at hmem
    rcases hmem with hmem | hmem
    · have hle := hway _ hmem
      rw [hplace] at hle
      omega
    · have hlength := congrArg (fun l => l.names.length) hmem
      simp [hplace, Path.Location.child] at hlength
  · exact fun k p _ => node?_empty_ne_file p
  · intro k hdirectory
    rw [Files.node?, if_neg] at hdirectory
    · cases hdirectory
    · intro hnil
      have hlength := hplace k
      rw [hnil] at hlength
      simp at hlength
  · exact fun k content executable hfile => absurd hfile (node?_empty_ne_file _ _ _)

/-- A store beside the working directory, which nobody wrote to. -/
theorem open_beside : (⟨"../cache/./"⟩ : DiskStore).Open {} := by
  refine open_empty ⟨by decide, by decide, by decide, ?_⟩ (by decide) ?_
  · have hnames : Path.names "../cache/./" = ["..", "cache"] := by decide +kernel
    rw [hnames]
    decide
  · decide +kernel

/-- The second write fails when its file is moved, the third when directories are made: what is read in the
end is what the first one left. -/
theorem performAll_refines_retry :
    let d : DiskStore := ⟨"../cache/./"⟩
    let ops : List Operation :=
      [.write (Key.fill 7) [1, 2] none, .write (Key.fill 7) [3] (some ⟨.rename, .denied, 0⟩),
        .write (Key.fill 9) [4] (some ⟨.makeDirectory, .denied, 2⟩), .read (Key.fill 7),
        .contains (Key.fill 9)]
    d.Open {} ∧ (∀ k, d.read {} k = .ok (({} : MemoryStore).read k)) ∧
      (d.kept {} ops).map Prod.snd = [.ok .written, .ok (.found (some [1, 2])), .ok (.said false)] ∧
      (d.kept {} ops).map Prod.snd =
        (({} : MemoryStore).performAll ((d.kept {} ops).map Prod.fst)).1.map Except.ok := by
  intro d ops
  have hnone : d.Contents {} ({} : MemoryStore).read := fun k => node?_empty_ne_file (d.place k)
  have hread := open_beside.read hnone
  exact ⟨open_beside, hread, by decide +kernel, (performAll_refines open_beside hread ops).1⟩

end DiskStore

end OpFusion
