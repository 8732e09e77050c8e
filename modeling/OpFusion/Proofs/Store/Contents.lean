/-
  What a store holds under its keys.

  `Store.Holds good`: whatever is stored under a key is good for it. Reading finds only what is good, and
  writing what is good for a key and removing a key keep this, also where they are refused half-way. The
  files of a store have names of their own, so that files of other names can be written next to them.
-/
import OpFusion.Proofs.Files
import OpFusion.Proofs.Key
import OpFusion.Proofs.Outcome
import OpFusion.Store.Basic

namespace OpFusion

/-! ## Names of files -/

theorem Path.isName_of_append {stem extension : String} (hstem : '/' ∉ stem.toList)
    (hextension : '/' ∉ extension.toList) (hlength : 2 < stem.toList.length + extension.toList.length) :
    Path.IsName (stem ++ extension) := by
  have hlong : 2 < (stem ++ extension).toList.length := by
    rwa [String.toList_append, List.length_append]
  have hshort : ∀ s : String, s.toList.length ≤ 2 → stem ++ extension ≠ s := by
    rintro s hs rfl
    omega
  refine ⟨?_, hshort "" (by decide), hshort "." (by decide), hshort ".." (by decide)⟩
  rw [String.toList_append, List.mem_append]
  exact fun h => h.elim hstem hextension

theorem Key.slash_notMem_hex (k : Key) : '/' ∉ k.hex.toList := by
  rw [toList_hex]
  exact fun h => absurd (Text.mem_hex h) (by decide)

theorem Key.length_hex (k : Key) : k.hex.toList.length = 64 := by rw [toList_hex, length_hexChars]

/-- A name made of the digits of a key. -/
theorem Key.isName (k : Key) {extension : String} (h : '/' ∉ extension.toList) :
    Path.IsName (k.hex ++ extension) :=
  Path.isName_of_append k.slash_notMem_hex h (by rw [k.length_hex]; omega)

namespace DiskStore

theorem isName_fileName (k : Key) : Path.IsName (fileName k) := k.isName (by decide)

theorem fileName_inj {k j : Key} (h : fileName k = fileName j) : k = j := by
  have hlist := congrArg String.toList h
  rw [fileName, fileName, String.toList_append, String.toList_append] at hlist
  exact Key.hex_inj (String.toList_injective (List.append_cancel_right hlist))

/-- The text of a module and its artifact have different names. -/
theorem ne_fileName_of_length {k j : Key} {extension : String}
    (h : extension.toList.length ≠ 9) : k.hex ++ extension ≠ fileName j := by
  intro heq
  have hlength := congrArg (fun s => s.toList.length) heq
  simp only [fileName, String.toList_append, List.length_append, Key.length_hex] at hlength
  have hartifact : ".artifact".toList.length = 9 := by decide
  omega

theorem isName_temporary (n : Nat) : Path.IsName (".tmp" ++ toString n) := by
  refine Path.isName_of_append (by decide) (fun h => ?_) ?_
  · rw [Nat.toString_eq_ofList_toDigits, String.toList_ofList] at h
    exact absurd (Nat.isDigit_of_mem_toDigits (by decide) (by decide) h) (by decide)
  · have htmp : ".tmp".toList.length = 4 := by decide
    omega

theorem temporary_ne_fileName (n : Nat) (k : Key) : ".tmp" ++ toString n ≠ fileName k := by
  intro h
  -- a name of digits does not start with a dot
  have hlist := congrArg (fun s => s.toList.head?) h
  simp only [fileName, String.toList_append, Key.toList_hex] at hlist
  cases hdigits : Text.hex k.bytes with
  | nil =>
    have hlength := k.length_hexChars
    rw [hdigits] at hlength
    cases hlength
  | cons c cs =>
    rw [hdigits] at hlist
    have hc : c ∈ "0123456789abcdef".toList := Text.mem_hex (by rw [hdigits]; simp)
    have hdot : some '.' = some c := hlist
    cases hdot
    exact absurd hc (by decide)

end DiskStore

/-! ## Contents -/

namespace Store

variable {good : Key → List UInt8 → Prop} {fs : Files} {s : Store} {k : Key} {bytes : List UInt8}

/-- Files in which artifacts are good for their keys. -/
def FilesHold (good : Key → List UInt8 → Prop) (fs : Files) : Prop :=
  fs.Keeps fun name bytes => ∀ k, name = DiskStore.fileName k → good k bytes

/-- Whatever is stored under a key is good for it. -/
def Holds (good : Key → List UInt8 → Prop) (fs : Files) : Store → Prop
  | memory s => ∀ k bytes, s.read k = some bytes → good k bytes
  | disk _ => FilesHold good fs

theorem Holds.read (h : s.Holds good fs) (hread : s.read fs k = .ok (some bytes)) : good k bytes := by
  cases s with
  | memory s => exact h k bytes (Except.ok.inj hread)
  | disk d =>
    rw [Store.read, DiskStore.read] at hread
    split at hread
    · next content hcontent =>
      cases hread
      exact Files.Keeps.read h (DiskStore.isName_fileName k) hcontent k rfl
    · cases hread
    · cases hread

theorem Holds.remove (h : s.Holds good fs) (k : Key) :
    (s.remove fs k).2.1.Holds good (s.remove fs k).2.2 := by
  cases s with
  | memory s =>
    intro j bytes hread
    rw [MemoryStore.read_remove] at hread
    split at hread
    · cases hread
    · exact h j bytes hread
  | disk d =>
    show FilesHold good (d.remove fs k).2
    unfold DiskStore.remove
    split
    · next fs' hremove => exact Files.Keeps.remove h hremove
    · exact h
    · exact h

/-- Files of other names do not disturb artifacts. -/
theorem FilesHold.write {fs' : Files} (h : FilesHold good fs) {dir name : String}
    (hname : Path.IsName name) (hgood : ∀ k, name = DiskStore.fileName k → good k bytes)
    (hwrite : fs.write (Path.join dir name) bytes = .ok fs') : FilesHold good fs' :=
  Files.Keeps.write h hname hgood hwrite

theorem FilesHold.rename {fs' : Files} (h : FilesHold good fs) {temporary dir : String}
    (hread : fs.read temporary = .ok bytes) (hgood : good k bytes)
    (hrename : fs.rename temporary (Path.join dir (DiskStore.fileName k)) = .ok fs') :
    FilesHold good fs' := by
  unfold Files.rename at hrename
  rw [hread] at hrename
  cases hwrite : fs.write (Path.join dir (DiskStore.fileName k)) bytes with
  | error fault =>
    simp only [bind, Except.bind, hwrite] at hrename
    cases hrename
  | ok fs₁ =>
    simp only [bind, Except.bind, hwrite] at hrename
    cases hrename
    refine Files.Keeps.discard (h.write (DiskStore.isName_fileName k) (fun j hj => ?_) hwrite) _
    cases DiskStore.fileName_inj hj
    exact hgood

theorem FilesHold.diskWrite (h : FilesHold good fs) (hgood : good k bytes) (d : DiskStore) :
    FilesHold good (d.write none fs k bytes).2 := by
  unfold DiskStore.write
  have hmade : FilesHold good (d.makeDirectory none fs k).2 := Files.Keeps.makeDirectories h _
  split
  · next fault fs₁ hdir =>
    rw [hdir] at hmade
    exact hmade
  · next made fs₁ hdir =>
    rw [hdir] at hmade
    dsimp only [DiskStore.attempt]
    have htemp : ∀ n j (content : List UInt8), ".tmp" ++ toString n = DiskStore.fileName j →
        good j content := fun n j _ heq => absurd heq (DiskStore.temporary_ne_fileName n j)
    split
    · exact hmade
    · next fs₂ hnew =>
      have hfs₂ := hmade.write (DiskStore.isName_temporary _) (fun j => htemp _ j _) hnew
      split
      · exact Files.Keeps.discard hfs₂ _
      · next fs₃ hfilled =>
        obtain ⟨_, hfill, hsync⟩ := Outcome.bind_eq_ok.1 hfilled
        cases hsync
        have hfs₃ := hfs₂.write (DiskStore.isName_temporary _) (fun j => htemp _ j _) hfill
        split
        · exact Files.Keeps.discard hfs₃ _
        · next fs₄ hrename => exact hfs₃.rename (Files.read_write hfill) hgood hrename

theorem Holds.write (h : s.Holds good fs) (hgood : good k bytes) :
    (s.write fs k bytes).2.1.Holds good (s.write fs k bytes).2.2 := by
  cases s with
  | memory s =>
    intro j content hread
    rw [MemoryStore.read_write] at hread
    split at hread
    · next hj =>
      cases hread
      rw [hj]
      exact hgood
    · exact h j content hread
  | disk d => exact FilesHold.diskWrite h hgood d

end Store

end OpFusion
