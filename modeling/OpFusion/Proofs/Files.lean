/-
  What files hold, by their names.

  `Keeps good`: every file holds what `good` says of its name. Making directories and removing files keeps
  this, and writing a file keeps it if what is written is good for the name (`Keeps.write`,
  `Keeps.makeDirectories`). A file that was written is read back (`read_write`).
-/
import Mathlib
import OpFusion.Files

namespace OpFusion

/-! ## The last name of a path -/

namespace Text

variable {p : Char → Bool}

theorem pieces_ne_nil (p : Char → Bool) (cs : List Char) : pieces p cs ≠ [] := by
  cases cs with
  | nil => simp [pieces]
  | cons c cs =>
    rw [pieces]
    split
    · simp
    · split <;> simp

theorem pieces_append_cons {c : Char} (hc : p c = true) (cs ds : List Char) :
    pieces p (cs ++ c :: ds) = pieces p cs ++ pieces p ds := by
  induction cs with
  | nil => simp [pieces, hc]
  | cons x cs ih =>
    rw [List.cons_append, pieces, pieces, ih]
    split
    · rfl
    · cases h : pieces p cs with
      | nil => exact absurd h (pieces_ne_nil p cs)
      | cons w ws => rfl

theorem pieces_eq_self {cs : List Char} (h : ∀ c ∈ cs, p c = false) : pieces p cs = [cs] := by
  induction cs with
  | nil => rfl
  | cons c cs ih =>
    rw [pieces, h c (by simp), ih fun x hx => h x (by simp [hx])]
    rfl

end Text

namespace Path

/-- A text that is a name in a path. -/
structure IsName (name : String) : Prop where
  noSlash : '/' ∉ name.toList
  ne_empty : name ≠ ""
  ne_dot : name ≠ "."
  ne_above : name ≠ ".."

theorem pieces_name {name : String} (h : IsName name) : pieces name = [name] := by
  have hself : Text.pieces (· = '/') name.toList = [name.toList] :=
    Text.pieces_eq_self fun c hc => by
      have hne : c ≠ '/' := fun he => h.noSlash (he ▸ hc)
      simpa using hne
  rw [pieces, hself, List.map_cons, String.ofList_toList]
  rfl

/-- The pieces of a path below a directory. -/
theorem pieces_join {name : String} (h : IsName name) (base : String) :
    ∃ before, pieces (join base name) = before ++ [name] ∧
      (before.filter fun name => name ≠ "" ∧ name ≠ ".") = names base := by
  have hslash : ∀ cs ds : List Char, Text.pieces (· = '/') (cs ++ '/' :: ds) =
      Text.pieces (· = '/') cs ++ Text.pieces (· = '/') ds :=
    fun cs ds => Text.pieces_append_cons (by simp) cs ds
  have hname : (Text.pieces (· = '/') name.toList).map String.ofList = [name] := pieces_name h
  unfold join
  split
  · next hbase =>
    rcases hbase with rfl | hlast
    · exact ⟨[], by rw [String.empty_append]; exact pieces_name h, by decide⟩
    · obtain ⟨cs, hcs⟩ := List.getLast?_eq_some_iff.1 hlast
      refine ⟨(Text.pieces (· = '/') cs).map String.ofList, ?_, ?_⟩
      · rw [pieces, String.toList_append, hcs, List.append_assoc, List.singleton_append, hslash,
          List.map_append, hname]
      · rw [names, pieces, hcs, hslash, List.map_append, List.filter_append]
        simp [Text.pieces]
  · refine ⟨pieces base, ?_, rfl⟩
    have hlist : (base ++ "/" ++ name).toList = base.toList ++ '/' :: name.toList := by
      simp [String.toList_append]
    rw [pieces, hlist, hslash, List.map_append, hname]
    rfl

/-- The names of a path below a directory. -/
theorem names_join {name : String} (h : IsName name) (base : String) :
    names (join base name) = names base ++ [name] := by
  obtain ⟨before, hpieces, hbefore⟩ := pieces_join h base
  rw [names, hpieces, List.filter_append, hbefore]
  simp [h.ne_empty, h.ne_dot]

end Path

/-! ## Places -/

namespace Files

variable {fs fs' : Files} {l l' : Path.Location}

theorem node?_set (fs : Files) (l l' : Path.Location) (node : Node) :
    (fs.set l node).node? l' = if l' = l ∧ l.names ≠ [] then some node else fs.node? l' := by
  unfold node? set
  by_cases hnames : l'.names = []
  · rw [if_pos hnames, if_pos hnames]
    split
    · next h => exact absurd (h.1 ▸ hnames) h.2
    · rfl
  · rw [if_neg hnames, if_neg hnames, Table.lookup_insert]
    by_cases hl : l' = l
    · rw [if_pos hl, if_pos ⟨hl, hl ▸ hnames⟩]
    · rw [if_neg hl, if_neg fun h => hl h.1]

theorem node?_erase (fs : Files) (l l' : Path.Location) :
    (fs.erase l).node? l' = if l' = l ∧ l.names ≠ [] then none else fs.node? l' := by
  unfold node? erase
  by_cases hnames : l'.names = []
  · rw [if_pos hnames, if_pos hnames]
    split
    · next h => exact absurd (h.1 ▸ hnames) h.2
    · rfl
  · rw [if_neg hnames, if_neg hnames, Table.lookup_erase]
    by_cases hl : l' = l
    · rw [if_pos hl, if_pos ⟨hl, hl ▸ hnames⟩]
    · rw [if_neg hl, if_neg fun h => hl h.1]

/-- A place that names lead to has the last name. -/
theorem follow_last {before : List String} {name : String} (hname : name ≠ "..")
    (h : fs.follow l (before ++ [name]) = .ok l') : l'.names.getLast? = some name := by
  have hstep : ∀ {l : Path.Location}, step l name = .ok l' → l'.names.getLast? = some name := by
    intro l h
    rw [step, if_neg hname] at h
    split at h
    · cases h
    · cases h
      simp [Path.Location.child]
  induction before generalizing l with
  | nil => exact hstep h
  | cons x before ih =>
    cases before with
    | nil =>
      rw [List.cons_append, List.nil_append, follow] at h
      · split at h
        · cases h
        · exact hstep h
      · simp
    | cons y before =>
      rw [List.cons_append, follow] at h
      · split at h
        · cases h
        · next next _ => exact ih h
      · simp

theorem locate_last {dir name : String} (hname : Path.IsName name)
    (h : fs.locate (Path.join dir name) = .ok l) : l.names.getLast? = some name := by
  have hnames := Path.names_join hname dir
  unfold locate at h
  split at h
  · cases h
  · split at h
    · cases h
    · split at h
      · cases h
      · rw [hnames] at h
        exact follow_last hname.ne_above h

/-! ## Writing and reading back -/

/-- A file that takes the place of no directory is on no way. -/
theorem follow_set {place : Path.Location} {content : List UInt8} {executable : Bool}
    (hplace : fs.node? place ≠ some .directory) {names : List String}
    (h : fs.follow l names = .ok l') :
    (fs.set place (.file content executable)).follow l names = .ok l' := by
  have henter : ∀ {l mid : Path.Location} {name : String}, fs.enter l name = .ok mid →
      (fs.set place (.file content executable)).enter l name = .ok mid := by
    intro l mid name h
    unfold enter at h ⊢
    split at h
    · cases h
    · split at h
      · next hdir =>
        cases h
        have hne : mid ≠ place := fun he => hplace (he ▸ hdir)
        rw [node?_set, if_neg fun h => hne h.1, hdir]
      · cases h
      · cases h
  induction names generalizing l with
  | nil => exact h
  | cons name names ih =>
    cases names with
    | nil => exact h
    | cons next names =>
      rw [follow] at h ⊢
      · split at h
        · cases h
        · next mid hmid =>
          rw [henter hmid]
          exact ih h
      · simp
      · simp

theorem locate_set {place : Path.Location} {content : List UInt8} {executable : Bool}
    (hplace : fs.node? place ≠ some .directory) {path : String} (h : fs.locate path = .ok l) :
    (fs.set place (.file content executable)).locate path = .ok l := by
  unfold locate at h ⊢
  split at h
  · cases h
  · next hnul =>
    rw [if_neg hnul]
    split at h
    · cases h
    · next hempty =>
      rw [if_neg hempty]
      split at h
      · cases h
      · next hlong =>
        rw [if_neg hlong]
        exact follow_set hplace h

/-- All that writing a file does. -/
theorem write_eq_ok {path : String} {content : List UInt8} (h : fs.write path content = .ok fs') :
    ∃ l executable, fs.locate path = .ok l ∧ Path.endsInDirectory path = false ∧
      fs.node? l ≠ some .directory ∧ fs' = fs.set l (.file content executable) := by
  unfold write at h
  split at h
  · cases h
  · next l hl =>
    split at h
    · cases h
    · next hend =>
      have hend : Path.endsInDirectory path = false := by simpa using hend
      split at h
      · cases h
      · next bytes executable hnode =>
        cases h
        exact ⟨l, executable, hl, hend, by simp [hnode], rfl⟩
      · next hnode =>
        cases h
        exact ⟨l, false, hl, hend, by simp [hnode], rfl⟩

theorem read_write {path : String} {content : List UInt8} (h : fs.write path content = .ok fs') :
    fs'.read path = .ok content := by
  obtain ⟨l, executable, hl, hend, hnode, rfl⟩ := write_eq_ok h
  have hnames : l.names ≠ [] := by
    intro hnil
    rw [node?, if_pos hnil] at hnode
    exact hnode rfl
  rw [read, reach, locate_set hnode hl]
  dsimp only
  rw [node?_set, if_pos ⟨rfl, hnames⟩]
  simp [hend]

/-! ## Files that are good for their names -/

/-- Every file holds what is good for its name. -/
def Keeps (good : String → List UInt8 → Prop) (fs : Files) : Prop :=
  ∀ l content executable, fs.node? l = some (.file content executable) →
    ∀ name, l.names.getLast? = some name → good name content

namespace Keeps

variable {good : String → List UInt8 → Prop}

theorem set_file (h : fs.Keeps good) {content : List UInt8} {executable : Bool}
    (hgood : ∀ name, l.names.getLast? = some name → good name content) :
    (fs.set l (.file content executable)).Keeps good := by
  intro l' content' executable' hnode
  rw [node?_set] at hnode
  split at hnode
  · next hl =>
    cases hnode
    rw [hl.1]
    exact hgood
  · exact h l' content' executable' hnode

theorem set_directory (h : fs.Keeps good) : (fs.set l .directory).Keeps good := by
  intro l' content' executable' hnode
  rw [node?_set] at hnode
  split at hnode
  · cases hnode
  · exact h l' content' executable' hnode

theorem erase (h : fs.Keeps good) : (fs.erase l).Keeps good := by
  intro l' content' executable' hnode
  rw [node?_erase] at hnode
  split at hnode
  · cases hnode
  · exact h l' content' executable' hnode

theorem read (h : fs.Keeps good) {dir name : String} (hname : Path.IsName name)
    {content : List UInt8} (hread : fs.read (Path.join dir name) = .ok content) : good name content := by
  unfold Files.read at hread
  split at hread
  · next l bytes executable hreach =>
    cases hread
    unfold reach at hreach
    split at hreach
    · cases hreach
    · next place hplace =>
      split at hreach
      · cases hreach
      · next hnode =>
        split at hreach
        · cases hreach
        · cases hreach
          exact h _ _ _ hnode name (locate_last hname hplace)
      · cases hreach
  · cases hread
  · cases hread

theorem write (h : fs.Keeps good) {dir name : String} (hname : Path.IsName name)
    {content : List UInt8} (hgood : good name content)
    (hwrite : fs.write (Path.join dir name) content = .ok fs') : fs'.Keeps good := by
  obtain ⟨l, executable, hl, -, -, rfl⟩ := write_eq_ok hwrite
  refine h.set_file fun last hlast => ?_
  rw [locate_last hname hl] at hlast
  cases hlast
  exact hgood

theorem remove (h : fs.Keeps good) {path : String} (hremove : fs.remove path = .ok fs') :
    fs'.Keeps good := by
  unfold Files.remove at hremove
  split at hremove
  · cases hremove
    exact h.erase
  · cases hremove
  · cases hremove

theorem discard (h : fs.Keeps good) (path : String) : (fs.discard path).Keeps good := by
  unfold Files.discard
  cases hremove : fs.remove path with
  | error fault => exact h
  | ok fs' => exact h.remove hremove

theorem ensureDirectory (h : fs.Keeps good) {names : List String}
    (hmake : fs.ensureDirectory l names = .ok fs') : fs'.Keeps good := by
  unfold Files.ensureDirectory at hmake
  split at hmake
  · next made hmade =>
    cases hmake
    unfold makeDirectory at hmade
    split at hmade
    · cases hmade
    · split at hmade
      · cases hmade
      · cases hmade
        exact h.set_directory
  · split at hmake
    · cases hmake
      exact h
    · cases hmake

theorem ensureDirectories (h : fs.Keeps good) (names : List String) :
    (fs.ensureDirectories l names).2.Keeps good := by
  induction names with
  | nil => exact h
  | cons name before ih =>
    unfold Files.ensureDirectories
    split
    · next made hmade => exact h.ensureDirectory hmade
    · split
      · next fault fs₁ hrest =>
        rw [hrest] at ih
        exact ih
      · next made fs₁ hrest =>
        rw [hrest] at ih
        split
        · next fs₂ hmade => exact ih.ensureDirectory hmade
        · exact ih
    · exact h

theorem makeDirectories (h : fs.Keeps good) (path : String) :
    (fs.makeDirectories path).2.Keeps good := by
  unfold Files.makeDirectories
  split
  · exact h
  · split
    · exact h
    · exact h.ensureDirectories _

end Keeps

end Files

end OpFusion
