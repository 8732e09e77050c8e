/-
  Keys and their digits are ordered alike.

  A greater value has a greater digit, also where the figures end and the letters begin
  (`Text.hexDigit_lt_hexDigit`). So two digits are compared as the bytes that they write
  (`Text.hexPair_append_lt`), and digits of bytes as these bytes (`Text.hex_lt_hex`). A key is read back from
  its digits, and its digits are its name: keys are told apart by their names and by the paths of their files,
  and are in order if their names are (`Key.hex_embeds`).
-/
import OpFusion.Proofs.Key.Spelling
import OpFusion.Proofs.Store.Mapping

namespace OpFusion

namespace Text

theorem hexDigit_lt_hexDigit : ∀ m < 16, ∀ n < 16, (hexDigit m < hexDigit n ↔ m < n) := by decide +kernel

theorem hexDigit_inj : ∀ m < 16, ∀ n < 16, (hexDigit m = hexDigit n ↔ m = n) := by decide +kernel

/-- **The digits of two bytes are compared as the bytes**, and what follows them only if these are equal. -/
theorem hexPair_append_lt {a b : UInt8} {cs ds : List Char} :
    hexPair a ++ cs < hexPair b ++ ds ↔ a < b ∨ a = b ∧ cs < ds := by
  have hhigh : ∀ u : UInt8, u.toNat / 16 < 16 := fun u => by have := u.toNat_lt; omega
  have hlow : ∀ u : UInt8, u.toNat % 16 < 16 := fun u => by omega
  simp only [hexPair, List.cons_append, List.nil_append, List.cons_lt_cons_iff,
    hexDigit_lt_hexDigit _ (hhigh a) _ (hhigh b), hexDigit_lt_hexDigit _ (hlow a) _ (hlow b),
    hexDigit_inj _ (hhigh a) _ (hhigh b), hexDigit_inj _ (hlow a) _ (hlow b), UInt8.lt_iff_toNat_lt,
    ← UInt8.toNat_inj]
  constructor
  · rintro (hlt | ⟨heq, hlt | ⟨heq', hrest⟩⟩)
    · exact .inl (by omega)
    · exact .inl (by omega)
    · exact .inr ⟨by omega, hrest⟩
  · rintro (hlt | ⟨heq, hrest⟩)
    · by_cases heq : a.toNat / 16 = b.toNat / 16
      · exact .inr ⟨heq, .inl (by omega)⟩
      · exact .inl (by omega)
    · exact .inr ⟨by rw [heq], .inr ⟨by rw [heq], hrest⟩⟩

/-- Digits of bytes are in the order of the bytes. -/
theorem hex_lt_hex {bytes bytes' : List UInt8} : hex bytes < hex bytes' ↔ bytes < bytes' := by
  induction bytes generalizing bytes' with
  | nil =>
    cases bytes' with
    | nil => simp [hex]
    | cons b bytes' => simp [hex, hexPair]
  | cons a bytes ih =>
    cases bytes' with
    | nil => simp [hex]
    | cons b bytes' =>
      have hcons : ∀ (u : UInt8) (us : List UInt8), hex (u :: us) = hexPair u ++ hex us := fun _ _ => rfl
      rw [hcons, hcons, hexPair_append_lt, ih, List.cons_lt_cons_iff]

end Text

namespace Key

variable {k j : Key}

/-- The digits of a key are read as the key. -/
theorem ofHex?_hex (k : Key) : ofHex? k.hex = .ok k := by
  have hbytes := Text.hexBytes?_hex k.bytes
  rw [ofHex?_eq_ok_iff, toList_hex]
  exact ⟨k.length_hexChars, (Text.hex_of_hexBytes? hbytes).1.toNat_lt, hbytes⟩

theorem hex_lt_hex : k.hex < j.hex ↔ k < j := by
  rw [String.lt_iff_toList_lt, toList_hex, toList_hex]
  exact Text.hex_lt_hex

/-- Keys in ascending order have names in ascending order. -/
theorem map_hex_sort (ks : List Key) : (sort ks).map hex = (ks.map hex).mergeSort := by
  refine List.map_mergeSort fun k _ j _ => ?_
  rw [← decide_not, decide_eq_decide, ← hex_lt_hex]
  exact String.not_lt

/-- **The name of a key tells the key and its place in the order.** It is read back as the key; a key comes before
another one if its name does; keys with one name, one path or one place in a store are one key; and to sort keys
is to sort their names. -/
theorem hex_embeds (k j : Key) (d : DiskStore) (ks : List Key) :
    ofHex? k.hex = .ok k ∧ (k < j ↔ k.hex < j.hex) ∧ (k.hex = j.hex ↔ k = j) ∧
      (d.path k = d.path j ↔ k = j) ∧ (d.place k = d.place j ↔ k = j) ∧
      (sort ks).map hex = (ks.map hex).mergeSort := by
  refine ⟨ofHex?_hex k, hex_lt_hex.symm, ⟨hex_inj, congrArg hex⟩, ⟨fun hpath => ?_, congrArg d.path⟩,
    ⟨DiskStore.place_inj, congrArg d.place⟩, map_hex_sort ks⟩
  exact DiskStore.place_inj (congrArg Path.place hpath)

end Key

end OpFusion
