/-
  Reading an artifact undoes writing it, and reads nothing else.

  The record of an artifact whose library fits is read back, whatever follows it
  (`Artifact.reads_artifact`), and no other bytes are (`Artifact.exact_artifact`). So what is written for a
  key is that artifact when it is read for the key, unless the library is empty
  (`Artifact.decode_encode`), and an artifact is read for a key only from its own record
  (`Artifact.decode_iff_record`), of which no part is missing.
-/
import OpFusion.Module.Text
import OpFusion.Proofs.Key
import OpFusion.Proofs.Wire
import OpFusion.Store.Record

namespace OpFusion

open Wire (Short)

theorem Utf8.length_bytesOf_le (s : String) : (bytesOf s).length ≤ 4 * s.toList.length := by
  have hchar : ∀ c, (encodeChar c).length ≤ 4 := by
    intro c
    unfold encodeChar
    dsimp only
    split
    · simp
    · split
      · simp
      · split <;> simp
  rw [bytesOf]
  induction s.toList with
  | nil => simp [encode]
  | cons c cs ih =>
    have hc := hchar c
    rw [encode, List.flatMap_cons, List.length_append, List.length_cons]
    rw [encode] at ih
    omega

namespace Artifact

/-- An artifact whose parts fit a record. -/
structure Fits (a : Artifact) : Prop where
  format : a.format < 2 ^ 32
  key : Short (Utf8.bytesOf a.key)
  entry : Short (Utf8.bytesOf a.entry)
  library : Short a.library

theorem reads_artifact : Wire.Reads Fits encode read := by
  intro a ha rest
  simp only [encode, List.append_assoc, read]
  rw [Wire.reads_u32 _ ha.format]
  dsimp only [bind, Except.bind]
  rw [Wire.reads_string _ ha.key]
  dsimp only
  rw [Wire.reads_string _ ha.entry]
  dsimp only
  rw [Wire.reads_bool _ trivial]
  dsimp only
  rw [Wire.reads_bool _ trivial]
  dsimp only
  rw [Wire.reads_bytes _ ha.library]
  rfl

theorem fits_new (k : Key) (hasInit reentrant : Bool) {library : List UInt8} (h : Short library) :
    (new k Module.entrySymbol hasInit reentrant library).Fits := by
  refine ⟨by simp [new, formatVersion], ?_, ?_, h⟩
  · have hle := Utf8.length_bytesOf_le k.hex
    rw [Key.toList_hex, k.length_hexChars] at hle
    exact Nat.lt_of_le_of_lt hle (by decide)
  · have hle := Utf8.length_bytesOf_le Module.entrySymbol
    have hlength : Module.entrySymbol.toList.length = 13 := by decide
    rw [hlength] at hle
    exact Nat.lt_of_le_of_lt hle (by decide)

/-- **What is written for a key is read for it.** -/
theorem decode_encode (k : Key) (hasInit reentrant : Bool) {library : List UInt8}
    (h : Short library) :
    decode k (new k Module.entrySymbol hasInit reentrant library).encode =
      if library = [] then .error .emptyLibrary
      else .ok (new k Module.entrySymbol hasInit reentrant library) := by
  have hread := reads_artifact _ (fits_new k hasInit reentrant h) []
  rw [List.append_nil] at hread
  rw [decode, hread]
  dsimp only
  rw [if_neg (by simp [new]), if_neg (by simp [new])]
  rfl

/-! ## Reading nothing else -/

theorem exact_artifact : Wire.Exact Fits encode read := by
  intro input a rest h
  obtain ⟨⟨format, input₁⟩, hformat, h⟩ := Outcome.bind_eq_ok.1 h
  obtain ⟨⟨key, input₂⟩, hkey, h⟩ := Outcome.bind_eq_ok.1 h
  obtain ⟨⟨entry, input₃⟩, hentry, h⟩ := Outcome.bind_eq_ok.1 h
  obtain ⟨⟨hasInit, input₄⟩, hinit, h⟩ := Outcome.bind_eq_ok.1 h
  obtain ⟨⟨reentrant, input₅⟩, hreentrant, h⟩ := Outcome.bind_eq_ok.1 h
  obtain ⟨⟨library, input₆⟩, hlibrary, h⟩ := Outcome.bind_eq_ok.1 h
  cases h
  obtain ⟨fitsFormat, rfl⟩ := Wire.exact_u32 _ _ _ hformat
  obtain ⟨fitsKey, rfl⟩ := Wire.exact_string _ _ _ hkey
  obtain ⟨fitsEntry, rfl⟩ := Wire.exact_string _ _ _ hentry
  obtain ⟨-, rfl⟩ := Wire.exact_bool _ _ _ hinit
  obtain ⟨-, rfl⟩ := Wire.exact_bool _ _ _ hreentrant
  obtain ⟨fitsLibrary, rfl⟩ := Wire.exact_bytes _ _ _ hlibrary
  exact ⟨⟨fitsFormat, fitsKey, fitsEntry, fitsLibrary⟩, by simp only [encode, List.append_assoc]⟩

variable {k : Key} {a : Artifact} {bytes : List UInt8}

/-- What an artifact has to be to be read for a key. -/
structure Belongs (k : Key) (a : Artifact) : Prop where
  format : a.format = 1
  key : a.key = k.hex
  library : a.library ≠ []

theorem belongs_new (entry : String) (hasInit reentrant : Bool) {library : List UInt8}
    (h : library ≠ []) : Belongs k (new k entry hasInit reentrant library) := ⟨rfl, rfl, h⟩

theorem decode_eq_ok : decode k bytes = .ok a ↔ (∃ rest, read bytes = .ok (a, rest)) ∧ Belongs k a := by
  unfold decode
  cases hread : read bytes with
  | error fault => simp
  | ok result =>
    obtain ⟨a', rest⟩ := result
    dsimp only
    split
    · next hformat =>
      refine iff_of_false (by simp) ?_
      rintro ⟨⟨_, h⟩, hbelongs⟩
      cases h
      exact hformat hbelongs.format
    split
    · next hkey =>
      refine iff_of_false (by simp) ?_
      rintro ⟨⟨_, h⟩, hbelongs⟩
      cases h
      exact hkey hbelongs.key
    split
    · next hlibrary =>
      refine iff_of_false (by simp) ?_
      rintro ⟨⟨_, h⟩, hbelongs⟩
      cases h
      exact hbelongs.library hlibrary
    · next hformat hkey hlibrary =>
      constructor
      · intro h
        cases h
        exact ⟨⟨rest, rfl⟩, Decidable.not_not.1 hformat, Decidable.not_not.1 hkey, hlibrary⟩
      · rintro ⟨⟨_, h⟩, -⟩
        cases h
        rfl

/-- An artifact of a key whose record is among few bytes fits that record. -/
theorem Belongs.fits (h : Belongs k a) (hshort : Short a.encode) : a.Fits := by
  simp only [encode, List.append_assoc] at hshort
  refine ⟨?_, hshort.right.left.right, hshort.right.right.left.right,
    hshort.right.right.right.right.right.right⟩
  rw [h.format]
  decide

/-- An artifact is read for a key from its record and whatever follows it, and from nothing else. -/
theorem decode_iff_append (hshort : Short bytes) :
    decode k bytes = .ok a ↔ (∃ tail, bytes = a.encode ++ tail) ∧ Belongs k a := by
  rw [decode_eq_ok]
  refine and_congr_left fun hbelongs => ⟨?_, ?_⟩
  · rintro ⟨rest, hread⟩
    exact ⟨rest, (exact_artifact _ _ _ hread).2⟩
  · rintro ⟨tail, rfl⟩
    exact ⟨tail, reads_artifact a (hbelongs.fits hshort.left) tail⟩

/-- Nothing is read from a record of which a part is missing. -/
theorem decode_strict_prefix (hbelongs : Belongs k a) (hshort : Short a.encode)
    (hpart : bytes <+: a.encode) (hne : bytes ≠ a.encode) : ∃ fault, decode k bytes = .error fault := by
  cases hdecode : decode k bytes with
  | error fault => exact ⟨fault, rfl⟩
  | ok a' =>
    obtain ⟨missing, hmissing⟩ := hpart
    rw [← hmissing] at hshort
    obtain ⟨⟨tail, rfl⟩, hbelongs'⟩ := (decode_iff_append hshort.left).1 hdecode
    -- the record of `a` begins with that of `a'`, so they are the same and nothing is missing
    have hfits := hbelongs.fits (hmissing ▸ hshort)
    rw [List.append_assoc, ← List.append_nil a.encode] at hmissing
    obtain ⟨rfl, hnil⟩ := reads_artifact.apart _ _ (hbelongs'.fits hshort.left.left) hfits _ _ hmissing
    obtain ⟨rfl, rfl⟩ := List.append_eq_nil_iff.1 hnil
    exact absurd (List.append_nil _) hne

/-- **Artifacts are read from their own records only.** From bytes, of which there are no more than a word
can count, an artifact is read for a key if and only if the bytes are its record and a tail, its format
is the present one, its key is that key and its library is not empty. So what is written for a key is
read back for it, and any record that is cut short is reported as corrupt. -/
theorem decode_iff_record (k : Key) :
    (∀ (bytes : List UInt8) (a : Artifact), Short bytes →
      (decode k bytes = .ok a ↔ (∃ tail, bytes = a.encode ++ tail) ∧
        a.format = 1 ∧ a.key = k.hex ∧ a.library ≠ [])) ∧
    ∀ (entry : String) (hasInit reentrant : Bool) (library : List UInt8), library ≠ [] →
      Short (new k entry hasInit reentrant library).encode →
      decode k (new k entry hasInit reentrant library).encode =
        .ok (new k entry hasInit reentrant library) ∧
      ∀ part, part <+: (new k entry hasInit reentrant library).encode →
        part ≠ (new k entry hasInit reentrant library).encode →
        ∃ reason, (decode k part).mapError (Fault.toError k) = .error (.corruption k.hex reason) := by
  refine ⟨fun bytes a hshort => ?_, fun entry hasInit reentrant library hlibrary hshort => ⟨?_, ?_⟩⟩
  · rw [decode_iff_append hshort]
    exact and_congr_right fun _ => ⟨fun h => ⟨h.format, h.key, h.library⟩, fun h => ⟨h.1, h.2.1, h.2.2⟩⟩
  · exact (decode_iff_append hshort).2
      ⟨⟨[], (List.append_nil _).symm⟩, belongs_new entry hasInit reentrant hlibrary⟩
  · intro part hpart hne
    obtain ⟨fault, hfault⟩ := decode_strict_prefix (belongs_new entry hasInit reentrant hlibrary) hshort
      hpart hne
    exact ⟨fault.message, by rw [hfault]; rfl⟩

/-- An artifact of one byte for the key of sevens. -/
def ofSevens : Artifact := new (Key.fill 7) "fusejit_entry" true false [1]

/-- It is read from its record and one byte more, and not from its record less its last byte. -/
theorem decode_ofSevens :
    (Short (ofSevens.encode ++ [9]) ∧ ofSevens.library ≠ []) ∧
    decode (Key.fill 7) (ofSevens.encode ++ [9]) = .ok ofSevens ∧
    decode (Key.fill 7) ofSevens.encode = .ok ofSevens ∧
    ∃ reason, (decode (Key.fill 7) ofSevens.encode.dropLast).mapError (Fault.toError (Key.fill 7)) =
      .error (.corruption (Key.fill 7).hex reason) := by
  have hlength : ofSevens.encode.length = 108 := by decide +kernel
  have hshort : Short ofSevens.encode := by
    rw [Short, hlength]
    decide
  have hlonger : Short (ofSevens.encode ++ [9]) := by
    rw [Short, List.length_append, hlength]
    decide
  obtain ⟨hexact, hnew⟩ := decode_iff_record (Key.fill 7)
  obtain ⟨hback, hcut⟩ := hnew "fusejit_entry" true false [1] (by simp) hshort
  refine ⟨⟨hlonger, by simp [ofSevens, new]⟩, ?_, hback, hcut _ (List.dropLast_prefix _) ?_⟩
  · exact (hexact _ _ hlonger).2 ⟨⟨[9], rfl⟩, rfl, rfl, by simp [ofSevens, new]⟩
  · intro heq
    have := congrArg List.length heq
    rw [List.length_dropLast, show (new _ _ _ _ _).encode.length = 108 from hlength] at this
    omega

end Artifact

end OpFusion
