/-
  Where paths lead.

  The names of a path lead from place to place, whether there is anything or not (`Location.way`). A path
  is followed if the places on the way are directories, and then leads to the last place
  (`Files.locate_eq_ok`).

  `Alters touched made` is what operations do to files at most: they write and remove files at some
  places and make directories at some others, but take no directory away. So what could be reached
  before is reached after them.
-/
import OpFusion.Proofs.Files
import OpFusion.Proofs.Outcome

namespace OpFusion

/-! ## Places along a path -/

namespace Path

/-- The place that a name leads to from a place. -/
def Location.next (l : Location) (name : String) : Location :=
  if name = ".." then l.parent else l.child name

/-- The places that names lead to, one after another. -/
def Location.way (l : Location) : List String → List Location
  | [] => []
  | name :: names => l.next name :: (l.next name).way names

/-- The place that names lead to in the end. -/
def Location.along (l : Location) (names : List String) : Location := names.foldl Location.next l

theorem Location.way_append (l : Location) (names more : List String) :
    l.way (names ++ more) = l.way names ++ (l.along names).way more := by
  induction names generalizing l with
  | nil => rfl
  | cons name names ih =>
    rw [List.cons_append, way, way, List.cons_append, ih]
    rfl

theorem Location.way_concat (l : Location) (names : List String) (name : String) :
    l.way (names ++ [name]) = l.way names ++ [l.along (names ++ [name])] := by
  rw [way_append]
  simp [way, along]

theorem Location.dropLast_way (l : Location) (name next : String) (names : List String) :
    (l.way (name :: next :: names)).dropLast =
      l.next name :: ((l.next name).way (next :: names)).dropLast := rfl

theorem Location.along_concat (l : Location) (names : List String) {name : String}
    (hname : name ≠ "..") : l.along (names ++ [name]) = (l.along names).child name := by
  simp [along, next, hname]

/-- The place that a path leads to. -/
def place (path : String) : Location := (start path).along (names path)

/-- The places on the way to the place of a path. -/
def wayTo (path : String) : List Location := ((start path).way (names path)).dropLast

/-- A path that can be followed if its directories are there. -/
structure Valid (path : String) : Prop where
  noNul : '\x00' ∉ path.toList
  ne_empty : path ≠ ""
  length : path.utf8ByteSize ≤ maxLength
  names : ∀ name ∈ names path, name.utf8ByteSize ≤ maxName

/-- A name is joined to a path with a slash or with nothing between them. -/
theorem exists_join_eq (base : String) :
    ∃ between, (between = "" ∨ between = "/") ∧ ∀ name, join base name = base ++ between ++ name := by
  unfold join
  split
  · exact ⟨"", Or.inl rfl, fun name => by rw [String.append_empty]⟩
  · exact ⟨"/", Or.inr rfl, fun name => rfl⟩

section Join

variable {name : String} (h : IsName name) (base : String)
include h

theorem start_join : start (join base name) = start base := by
  have hhead : (join base name).toList.head? = some '/' ↔ base.toList.head? = some '/' := by
    unfold join
    by_cases hbase : base = ""
    · subst hbase
      have hname : name.toList.head? ≠ some '/' := fun hmem => h.noSlash (List.mem_of_mem_head? hmem)
      simp [hname]
    · have hne : base.toList ≠ [] := by simpa using hbase
      obtain ⟨c, cs, hcs⟩ := List.exists_cons_of_ne_nil hne
      split <;> simp [String.toList_append, hcs]
  simp only [start, hhead]

theorem endsInDirectory_join : endsInDirectory (join base name) = false := by
  obtain ⟨before, hpieces, -⟩ := pieces_join h base
  rw [endsInDirectory, hpieces]
  simp [h.ne_empty, h.ne_dot]

theorem place_join : place (join base name) = (place base).child name := by
  rw [place, start_join h, names_join h, Location.along_concat _ _ h.ne_above, place]

theorem wayTo_join : wayTo (join base name) = (start base).way (names base) := by
  rw [wayTo, start_join h, names_join h, Location.way_concat, List.dropLast_concat]

/-- A path with a name at its end can be followed if the name is short and the path itself not too long. -/
theorem valid_join :
    Valid (join base name) ↔
      '\x00' ∉ base.toList ∧ '\x00' ∉ name.toList ∧ (join base name).utf8ByteSize ≤ maxLength ∧
        (∀ n ∈ names base, n.utf8ByteSize ≤ maxName) ∧ name.utf8ByteSize ≤ maxName := by
  obtain ⟨between, hbetween, heq⟩ := exists_join_eq base
  have hnul : '\x00' ∈ (join base name).toList ↔ '\x00' ∈ base.toList ∨ '\x00' ∈ name.toList := by
    rcases hbetween with rfl | rfl <;> simp [heq]
  have hnames : (∀ n ∈ names (join base name), n.utf8ByteSize ≤ maxName) ↔
      (∀ n ∈ names base, n.utf8ByteSize ≤ maxName) ∧ name.utf8ByteSize ≤ maxName := by
    rw [names_join h, List.forall_mem_append, List.forall_mem_singleton]
  constructor
  · rintro ⟨hnone, -, hlength, hshort⟩
    rw [hnul, not_or] at hnone
    exact ⟨hnone.1, hnone.2, hlength, hnames.1 hshort⟩
  · rintro ⟨hbase, hname, hlength, hshort⟩
    refine ⟨?_, ?_, hlength, hnames.2 hshort⟩
    · rw [hnul, not_or]
      exact ⟨hbase, hname⟩
    · intro hempty
      have hlist := congrArg String.toList hempty
      simp [heq, h.ne_empty] at hlist

end Join

end Path

namespace Files

variable {fs fs' fs'' : Files} {l l' : Path.Location} {names : List String} {path : String}

/-! ## Following names -/

theorem step_eq_ok {name : String} :
    step l name = .ok l' ↔ name.utf8ByteSize ≤ Path.maxName ∧ l' = l.next name := by
  unfold step Path.Location.next
  by_cases hname : name = ".."
  · subst hname
    have hsize : "..".utf8ByteSize ≤ Path.maxName := by decide
    simp [hsize, eq_comm]
  · rw [if_neg hname, if_neg hname]
    by_cases hsize : Path.maxName < name.utf8ByteSize
    · rw [if_pos hsize]
      refine iff_of_false (by simp) fun h => ?_
      omega
    · rw [if_neg hsize]
      simp [Nat.not_lt.1 hsize, eq_comm]

theorem enter_eq_ok {name : String} :
    fs.enter l name = .ok l' ↔
      name.utf8ByteSize ≤ Path.maxName ∧ fs.node? (l.next name) = some .directory ∧ l' = l.next name := by
  unfold enter
  cases hstep : step l name with
  | error fault =>
    refine iff_of_false (by simp) ?_
    rintro ⟨hsize, -, -⟩
    rw [step_eq_ok.2 ⟨hsize, rfl⟩] at hstep
    cases hstep
  | ok mid =>
    obtain ⟨hsize, rfl⟩ := step_eq_ok.1 hstep
    dsimp only
    split
    · next hnode => simp [hsize, hnode, eq_comm]
    · next hnode => simp [hnode]
    · next hnode => simp [hnode]

/-- Names are followed through directories. -/
theorem follow_eq_ok :
    fs.follow l names = .ok l' ↔
      (∀ name ∈ names, name.utf8ByteSize ≤ Path.maxName) ∧
      (∀ p ∈ (l.way names).dropLast, fs.node? p = some .directory) ∧ l' = l.along names := by
  induction names generalizing l with
  | nil => simp [follow, Path.Location.way, Path.Location.along, eq_comm]
  | cons name names ih =>
    cases names with
    | nil => simp [follow, step_eq_ok, Path.Location.way, Path.Location.along]
    | cons next names =>
      rw [follow.eq_3 _ _ _ _ (by simp), Path.Location.dropLast_way]
      cases henter : fs.enter l name with
      | error fault =>
        refine iff_of_false (by simp) ?_
        rintro ⟨hsizes, hnodes, -⟩
        rw [enter_eq_ok.2 ⟨hsizes name (by simp), hnodes _ (by simp), rfl⟩] at henter
        cases henter
      | ok mid =>
        obtain ⟨hsize, hnode, rfl⟩ := enter_eq_ok.1 henter
        dsimp only
        rw [ih]
        simp only [List.forall_mem_cons, hsize, hnode, true_and]
        rfl

/-- Where no file is on the way, a name that is not found is all that can go wrong. -/
theorem follow_of_clear (hnames : ∀ name ∈ names, name.utf8ByteSize ≤ Path.maxName)
    (hway : ∀ p ∈ (l.way names).dropLast, ∀ content executable,
      fs.node? p ≠ some (.file content executable)) :
    fs.follow l names = .ok (l.along names) ∨ fs.follow l names = .error .notFound := by
  induction names generalizing l with
  | nil => exact Or.inl rfl
  | cons name names ih =>
    cases names with
    | nil => exact Or.inl (step_eq_ok.2 ⟨hnames name (by simp), rfl⟩)
    | cons next names =>
      rw [Path.Location.dropLast_way, List.forall_mem_cons] at hway
      rw [List.forall_mem_cons] at hnames
      rw [follow.eq_3 _ _ _ _ (by simp), enter, step_eq_ok.2 ⟨hnames.1, rfl⟩]
      dsimp only
      cases hnode : fs.node? (l.next name) with
      | none => exact Or.inr rfl
      | some node =>
        cases node with
        | file content executable => exact absurd hnode (hway.1 content executable)
        | directory => exact ih hnames.2 hway.2

/-- **A path leads to its place if it is valid and goes through directories.** -/
theorem locate_eq_ok :
    fs.locate path = .ok l ↔
      Path.Valid path ∧ (∀ p ∈ Path.wayTo path, fs.node? p = some .directory) ∧ l = Path.place path := by
  unfold locate
  split
  · next hnul =>
    refine iff_of_false (by simp) fun h => h.1.noNul ?_
    simpa using hnul
  split
  · next hempty => exact iff_of_false (by simp) fun h => h.1.ne_empty hempty
  split
  · next hlong => exact iff_of_false (by simp) fun h => absurd h.1.length (Nat.not_le.2 hlong)
  · next hnul hempty hlong =>
    rw [follow_eq_ok]
    refine and_congr_left fun _ => ⟨fun h => ⟨?_, hempty, Nat.not_lt.1 hlong, h⟩, fun h => h.names⟩
    simpa using hnul

theorem locate_of_clear (hvalid : Path.Valid path)
    (hway : ∀ p ∈ Path.wayTo path, ∀ content executable, fs.node? p ≠ some (.file content executable)) :
    fs.locate path = .ok (Path.place path) ∨ fs.locate path = .error .notFound := by
  unfold locate
  rw [if_neg (by simpa using hvalid.noNul), if_neg hvalid.ne_empty, if_neg (Nat.not_lt.2 hvalid.length)]
  exact follow_of_clear hvalid.names hway

theorem reach_eq_ok {node : Node} :
    fs.reach path = .ok (l, node) ↔
      fs.locate path = .ok l ∧ fs.node? l = some node ∧
        (node = .directory ∨ Path.endsInDirectory path = false) := by
  unfold reach
  cases hlocate : fs.locate path with
  | error fault => simp
  | ok place =>
    dsimp only
    split
    · next hnode =>
      simp only [Except.ok.injEq, Prod.mk.injEq]
      constructor
      · rintro ⟨rfl, rfl⟩
        exact ⟨rfl, hnode, Or.inl rfl⟩
      · rintro ⟨rfl, hnode', -⟩
        rw [hnode] at hnode'
        cases hnode'
        exact ⟨rfl, rfl⟩
    · next content executable hnode =>
      split
      · next hend =>
        refine iff_of_false (by simp) ?_
        rintro ⟨hplace, hnode', hnode''⟩
        cases hplace
        rw [hnode] at hnode'
        cases hnode'
        rw [hend] at hnode''
        rcases hnode'' with hnode'' | hnode'' <;> cases hnode''
      · next hend =>
        simp only [Except.ok.injEq, Prod.mk.injEq]
        constructor
        · rintro ⟨rfl, rfl⟩
          exact ⟨rfl, hnode, Or.inr (by simpa using hend)⟩
        · rintro ⟨rfl, hnode', -⟩
          rw [hnode] at hnode'
          cases hnode'
          exact ⟨rfl, rfl⟩
    · next hnode =>
      refine iff_of_false (by simp) ?_
      rintro ⟨hplace, hnode', -⟩
      cases hplace
      rw [hnode] at hnode'
      cases hnode'

theorem read_eq_ok {content : List UInt8} :
    fs.read path = .ok content ↔
      ∃ l executable, fs.locate path = .ok l ∧ fs.node? l = some (.file content executable) ∧
        Path.endsInDirectory path = false := by
  constructor
  · intro h
    unfold read at h
    split at h
    · next l content' executable hreach =>
      cases h
      obtain ⟨hlocate, hnode, hend⟩ := reach_eq_ok.1 hreach
      exact ⟨l, executable, hlocate, hnode, hend.resolve_left (by simp)⟩
    · cases h
    · cases h
  · rintro ⟨l, executable, hlocate, hnode, hend⟩
    rw [read, reach_eq_ok.2 ⟨hlocate, hnode, Or.inr hend⟩]

/-- A file can be written where a path leads to no directory. -/
theorem exists_write (hlocate : fs.locate path = .ok l) (hend : Path.endsInDirectory path = false)
    (hnode : fs.node? l ≠ some .directory) (content : List UInt8) :
    ∃ fs', fs.write path content = .ok fs' := by
  unfold write
  rw [hlocate, hend]
  dsimp only
  rw [if_neg (by simp)]
  split
  · next hdirectory => exact absurd hdirectory hnode
  · exact ⟨_, rfl⟩
  · exact ⟨_, rfl⟩

/-- All that removing a file does. -/
theorem remove_eq_ok (h : fs.remove path = .ok fs') :
    ∃ l content executable, fs.locate path = .ok l ∧ fs.node? l = some (.file content executable) ∧
      fs' = fs.erase l := by
  unfold remove at h
  split at h
  · next l content executable hreach =>
    cases h
    obtain ⟨hlocate, hnode, -⟩ := reach_eq_ok.1 hreach
    exact ⟨l, content, executable, hlocate, hnode, rfl⟩
  · cases h
  · cases h

/-- A file that can be read can be removed. -/
theorem exists_remove {content : List UInt8} (h : fs.read path = .ok content) :
    ∃ fs', fs.remove path = .ok fs' := by
  obtain ⟨l, executable, hlocate, hnode, hend⟩ := read_eq_ok.1 h
  exact ⟨fs.erase l, by rw [remove, reach_eq_ok.2 ⟨hlocate, hnode, Or.inr hend⟩]⟩

/-- All that moving a file does. -/
theorem rename_eq_ok {target : String} (h : fs.rename path target = .ok fs') :
    ∃ content fs₁, fs.read path = .ok content ∧ fs.write target content = .ok fs₁ ∧
      fs' = fs₁.discard path := by
  obtain ⟨content, hread, h⟩ := Outcome.bind_eq_ok.1 h
  obtain ⟨fs₁, hwrite, h⟩ := Outcome.bind_eq_ok.1 h
  cases h
  exact ⟨content, fs₁, hread, hwrite, rfl⟩

/-! ## What operations alter -/

/-- Files that differ from others at most in files at places that are touched and in directories at
places where they are made. -/
structure Alters (touched made : Path.Location → Prop) (fs fs' : Files) : Prop where
  directory : ∀ l, fs.node? l = some .directory → fs'.node? l = some .directory
  made : ∀ l, fs'.node? l = some .directory → fs.node? l = some .directory ∨ made l
  file : ∀ l content executable, ¬ touched l →
    (fs'.node? l = some (.file content executable) ↔ fs.node? l = some (.file content executable))

namespace Alters

variable {touched touched' made made' : Path.Location → Prop}

theorem refl (fs : Files) : Alters touched made fs fs :=
  ⟨fun _ h => h, fun _ h => Or.inl h, fun _ _ _ _ => Iff.rfl⟩

theorem trans (h : Alters touched made fs fs') (h' : Alters touched made fs' fs'') :
    Alters touched made fs fs'' where
  directory l hl := h'.directory l (h.directory l hl)
  made l hl := (h'.made l hl).elim (h.made l) Or.inr
  file l content executable hl := (h'.file l content executable hl).trans (h.file l content executable hl)

theorem mono (h : Alters touched made fs fs') (htouched : ∀ l, touched l → touched' l)
    (hmade : ∀ l, made l → made' l) : Alters touched' made' fs fs' where
  directory := h.directory
  made l hl := (h.made l hl).imp_right (hmade l)
  file l content executable hl := h.file l content executable fun hl' => hl (htouched l hl')

theorem locate (h : Alters touched made fs fs') (hl : fs.locate path = .ok l) :
    fs'.locate path = .ok l := by
  obtain ⟨hvalid, hway, hplace⟩ := locate_eq_ok.1 hl
  exact locate_eq_ok.2 ⟨hvalid, fun p hp => h.directory p (hway p hp), hplace⟩

theorem set_file {content : List UInt8} {executable : Bool} (hl : fs.node? l ≠ some .directory) :
    Alters (· = l) made fs (fs.set l (.file content executable)) where
  directory l' hl' := by
    have hne : l' ≠ l := fun he => hl (he ▸ hl')
    rw [node?_set, if_neg fun h => hne h.1]
    exact hl'
  made l' hl' := by
    rw [node?_set] at hl'
    split at hl'
    · cases hl'
    · exact Or.inl hl'
  file l' content executable hl' := by rw [node?_set, if_neg fun h => hl' h.1]

theorem set_directory (hl : fs.node? l = none) : Alters touched (· = l) fs (fs.set l .directory) where
  directory l' hl' := by
    rw [node?_set]
    split
    · rfl
    · exact hl'
  made l' hl' := by
    rw [node?_set] at hl'
    split at hl'
    · next h => exact Or.inr h.1
    · exact Or.inl hl'
  file l' content executable _ := by
    rw [node?_set]
    split
    · next h =>
      rw [h.1, hl]
      simp
    · rfl

theorem erase (hl : fs.node? l ≠ some .directory) : Alters (· = l) made fs (fs.erase l) where
  directory l' hl' := by
    have hne : l' ≠ l := fun he => hl (he ▸ hl')
    rw [node?_erase, if_neg fun h => hne h.1]
    exact hl'
  made l' hl' := by
    rw [node?_erase] at hl'
    split at hl'
    · cases hl'
    · exact Or.inl hl'
  file l' content executable hl' := by rw [node?_erase, if_neg fun h => hl' h.1]

theorem write {content : List UInt8} (h : fs.write path content = .ok fs') :
    Alters (· = Path.place path) made fs fs' := by
  obtain ⟨l, executable, hlocate, -, hnode, rfl⟩ := write_eq_ok h
  obtain ⟨-, -, rfl⟩ := locate_eq_ok.1 hlocate
  exact set_file hnode

theorem remove (h : fs.remove path = .ok fs') : Alters (· = Path.place path) made fs fs' := by
  obtain ⟨l, content, executable, hlocate, hnode, rfl⟩ := remove_eq_ok h
  obtain ⟨-, -, rfl⟩ := locate_eq_ok.1 hlocate
  exact erase (by simp [hnode])

theorem discard (fs : Files) (path : String) :
    Alters (· = Path.place path) made fs (fs.discard path) := by
  unfold Files.discard
  cases h : fs.remove path with
  | error fault => exact refl fs
  | ok fs' => exact remove h

/-- A file at a place that is not touched is read as before. -/
theorem read (h : Alters touched made fs fs') (hplace : ¬ touched (Path.place path))
    {content : List UInt8} (hread : fs.read path = .ok content) : fs'.read path = .ok content := by
  obtain ⟨l, executable, hlocate, hnode, hend⟩ := read_eq_ok.1 hread
  refine read_eq_ok.2 ⟨l, executable, h.locate hlocate, ?_, hend⟩
  rw [(locate_eq_ok.1 hlocate).2.2] at hnode ⊢
  exact (h.file _ _ _ hplace).2 hnode

theorem ensureDirectory (h : fs.ensureDirectory l names = .ok fs') :
    Alters touched (· = l.along names) fs fs' := by
  unfold Files.ensureDirectory at h
  split at h
  · next fs₁ hmake =>
    cases h
    unfold makeDirectory at hmake
    split at hmake
    · cases hmake
    · next place hfollow =>
      obtain ⟨-, -, rfl⟩ := follow_eq_ok.1 hfollow
      split at hmake
      · cases hmake
      · next hnode =>
        cases hmake
        exact set_directory (by simpa using hnode)
  · split at h
    · cases h
      exact refl fs
    · cases h

/-- **Directories are made on the way only.** -/
theorem ensureDirectories (fs : Files) (l : Path.Location) (reversed : List String) :
    Alters touched (· ∈ l.way reversed.reverse) fs (fs.ensureDirectories l reversed).2 := by
  induction reversed with
  | nil => exact refl fs
  | cons name before ih =>
    have hway : l.way (name :: before).reverse =
        l.way before.reverse ++ [l.along (name :: before).reverse] := by
      rw [List.reverse_cons, Path.Location.way_concat]
    have hlast {fs fs' : Files} (h : fs.ensureDirectory l (name :: before).reverse = .ok fs') :
        Alters touched (· ∈ l.way (name :: before).reverse) fs fs' := by
      refine (ensureDirectory h).mono (fun _ h => h) ?_
      rintro p rfl
      rw [hway]
      exact List.mem_append_right _ (List.mem_singleton_self _)
    have hbefore : Alters touched (· ∈ l.way (name :: before).reverse) fs
        (fs.ensureDirectories l before).2 := by
      refine ih.mono (fun _ h => h) fun p hp => ?_
      rw [hway]
      exact List.mem_append_left _ hp
    unfold Files.ensureDirectories
    split
    · next fs₁ hmade => exact hlast hmade
    · split
      · next fault fs₁ hrest =>
        rw [hrest] at hbefore
        exact hbefore
      · next made fs₁ hrest =>
        rw [hrest] at hbefore
        split
        · next fs₂ hmade => exact hbefore.trans (hlast hmade)
        · exact hbefore
    · exact refl fs

theorem makeDirectories (fs : Files) (path : String) :
    Alters touched (· ∈ (Path.start path).way (Path.names path)) fs (fs.makeDirectories path).2 := by
  unfold Files.makeDirectories
  split
  · exact refl fs
  · split
    · exact refl fs
    · simpa using ensureDirectories fs (Path.start path) (Path.names path).reverse

end Alters

/-! ## Making directories -/

theorem ensureDirectory_ok (hfollow : fs.follow l names = .ok (l.along names))
    (hnode : ∀ content executable, fs.node? (l.along names) ≠ some (.file content executable)) :
    ∃ fs', fs.ensureDirectory l names = .ok fs' ∧ fs'.node? (l.along names) = some .directory := by
  unfold ensureDirectory makeDirectory isDirectory
  rw [hfollow]
  rcases Option.eq_none_or_eq_some (fs.node? (l.along names)) with hnone | ⟨node, hsome⟩
  · have hroot : (l.along names).names ≠ [] := by
      intro hroot
      rw [node?, if_pos hroot] at hnone
      cases hnone
    refine ⟨fs.set (l.along names) .directory, by simp [hnone], ?_⟩
    rw [node?_set, if_pos ⟨rfl, hroot⟩]
  · cases node with
    | file content executable => exact absurd hsome (hnode content executable)
    | directory => exact ⟨fs, by simp [hsome], hsome⟩

/-- **Directories can be made where no file is on the way.** -/
theorem ensureDirectories_ok {reversed : List String}
    (hnames : ∀ name ∈ reversed, name.utf8ByteSize ≤ Path.maxName)
    (hway : ∀ p ∈ l.way reversed.reverse, ∀ content executable,
      fs.node? p ≠ some (.file content executable)) :
    ∃ fs', fs.ensureDirectories l reversed = (.ok (), fs') ∧
      ∀ p ∈ l.way reversed.reverse, fs'.node? p = some .directory := by
  induction reversed with
  | nil => exact ⟨fs, rfl, by simp [Path.Location.way]⟩
  | cons name before ih =>
    have hconcat := Path.Location.way_concat l before.reverse name
    rw [← List.reverse_cons] at hconcat
    rw [hconcat, List.forall_mem_append, List.forall_mem_singleton] at hway
    have hshort : ∀ n ∈ (name :: before).reverse, n.utf8ByteSize ≤ Path.maxName :=
      fun n hn => hnames n (List.mem_reverse.1 hn)
    -- once the directories before it are there, the last one can be made
    have hlast : ∀ fs₁ : Files, (∀ p ∈ l.way before.reverse, fs₁.node? p = some .directory) →
        (∀ content executable,
          fs₁.node? (l.along (name :: before).reverse) ≠ some (.file content executable)) →
        ∃ fs', fs₁.ensureDirectory l (name :: before).reverse = .ok fs' ∧
          ∀ p ∈ l.way (name :: before).reverse, fs'.node? p = some .directory := by
      intro fs₁ hdirs hplace
      have hfollow : fs₁.follow l (name :: before).reverse = .ok (l.along (name :: before).reverse) := by
        refine follow_eq_ok.2 ⟨hshort, ?_, rfl⟩
        rwa [hconcat, List.dropLast_concat]
      obtain ⟨fs', hmade, hnode⟩ := ensureDirectory_ok hfollow hplace
      have halters : Alters (fun _ => False) _ fs₁ fs' := .ensureDirectory hmade
      refine ⟨fs', hmade, ?_⟩
      rw [hconcat, List.forall_mem_append, List.forall_mem_singleton]
      exact ⟨fun p hp => halters.directory p (hdirs p hp), hnode⟩
    unfold ensureDirectories
    have hclear : ∀ p ∈ (l.way (name :: before).reverse).dropLast, ∀ content executable,
        fs.node? p ≠ some (.file content executable) := by
      rw [hconcat, List.dropLast_concat]
      exact hway.1
    rcases follow_of_clear hshort hclear with hfollow | hfollow
    · have hdirs := (follow_eq_ok.1 hfollow).2.1
      rw [hconcat, List.dropLast_concat] at hdirs
      obtain ⟨fs', hmade, hall⟩ := hlast fs hdirs hway.2
      exact ⟨fs', by rw [hmade], hall⟩
    · have hmissing : fs.ensureDirectory l (name :: before).reverse = .error .notFound := by
        unfold ensureDirectory makeDirectory isDirectory
        rw [hfollow]
        rfl
      obtain ⟨fs₁, hmade₁, hdirs⟩ := ih (fun n hn => hnames n (by simp [hn])) hway.1
      have halters : Alters (fun _ => False) _ fs (fs.ensureDirectories l before).2 :=
        .ensureDirectories fs l before
      rw [hmade₁] at halters
      obtain ⟨fs', hmade, hall⟩ := hlast fs₁ hdirs fun content executable hnode =>
        hway.2 content executable ((halters.file _ _ _ (fun h => h)).1 hnode)
      exact ⟨fs', by rw [hmissing, hmade₁]; dsimp only; rw [hmade], hall⟩

theorem makeDirectories_ok (hnul : '\x00' ∉ path.toList) (hlength : path.utf8ByteSize ≤ Path.maxLength)
    (hnames : ∀ name ∈ Path.names path, name.utf8ByteSize ≤ Path.maxName)
    (hway : ∀ p ∈ (Path.start path).way (Path.names path), ∀ content executable,
      fs.node? p ≠ some (.file content executable)) :
    ∃ fs', fs.makeDirectories path = (.ok (), fs') ∧
      ∀ p ∈ (Path.start path).way (Path.names path), fs'.node? p = some .directory := by
  unfold makeDirectories
  rw [if_neg (by simpa using hnul), if_neg (Nat.not_lt.2 hlength)]
  have hreversed : ∀ name ∈ (Path.names path).reverse, name.utf8ByteSize ≤ Path.maxName :=
    fun name hname => hnames name (List.mem_reverse.1 hname)
  rw [← List.reverse_reverse (Path.names path)] at hway
  obtain ⟨fs', hmade, hdirs⟩ := ensureDirectories_ok hreversed hway
  rw [List.reverse_reverse] at hdirs
  exact ⟨fs', hmade, hdirs⟩

end Files

end OpFusion
