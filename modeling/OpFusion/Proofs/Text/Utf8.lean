/-
  UTF-8: reading undoes writing, and reads nothing else.

  The bytes of a character are read as that character, whatever follows them (`scan_encodeChar`), so that
  the bytes of a text are the bytes of that text alone (`decode_encode`, `bytesOf_inj`). A character is
  read only from its own bytes (`scan_char`), so that bytes that are read as a text are the bytes of
  that text (`decode_eq_ok_iff`).
-/
import Mathlib
import OpFusion.Proofs.Outcome
import OpFusion.Text.Utf8

namespace OpFusion.Utf8

theorem toNat_ofNat {n : Nat} (h : n < 256) : (UInt8.ofNat n).toNat = n := by
  rw [UInt8.toNat_ofNat', Nat.mod_eq_of_lt h]

theorem within_ofNat {lo hi n : Nat} (h : n < 256) :
    within lo hi (.ofNat n) = true ↔ lo ≤ n ∧ n ≤ hi := by
  rw [within, toNat_ofNat h, Bool.and_eq_true, decide_eq_true_eq, decide_eq_true_eq]

theorem within_continuation (n : Nat) : within 0x80 0xBF (.ofNat (0x80 + n % 64)) = true :=
  (within_ofNat (by omega)).2 (by omega)

theorem payload_continuation (n : Nat) : payload (.ofNat (0x80 + n % 64)) = n % 64 := by
  rw [payload, toNat_ofNat (by omega)]
  omega

/-! ## Sequences of bytes -/

variable {n : Nat}

theorem scan_two (h : 0x80 ≤ n) (h' : n < 0x800) (rest : List UInt8) :
    scan (.ofNat (0xC0 + n / 64)) (.ofNat (0x80 + n % 64) :: rest) = .char (Char.ofNat n) 1 := by
  have hnumber : (0xC0 + n / 64) % 32 * 64 + n % 64 = n := by omega
  rw [scan, toNat_ofNat (by omega), if_neg (by omega), if_pos ((within_ofNat (by omega)).2 (by omega)),
    scanTwo, if_pos (within_continuation n), toNat_ofNat (by omega), payload_continuation, hnumber]

theorem scan_three (h : 0x800 ≤ n) (h' : n < 0x10000) (hvalid : n < 0xD800 ∨ 0xDFFF < n)
    (rest : List UInt8) :
    scan (.ofNat (0xE0 + n / 4096)) (.ofNat (0x80 + n / 64 % 64) :: .ofNat (0x80 + n % 64) :: rest) =
      .char (Char.ofNat n) 2 := by
  have hsecond : within (secondOfThree (.ofNat (0xE0 + n / 4096))).1
      (secondOfThree (.ofNat (0xE0 + n / 4096))).2 (.ofNat (0x80 + n / 64 % 64)) = true := by
    rw [secondOfThree, toNat_ofNat (by omega)]
    split
    · exact (within_ofNat (by omega)).2 (by omega)
    · split
      · exact (within_ofNat (by omega)).2 (by omega)
      · exact within_continuation _
  have hnumber : (0xE0 + n / 4096) % 16 * 4096 + n / 64 % 64 * 64 + n % 64 = n := by omega
  rw [scan, toNat_ofNat (by omega), if_neg (by omega), if_neg (by rw [within_ofNat] <;> omega),
    if_pos ((within_ofNat (by omega)).2 (by omega)), scanThree, if_pos hsecond,
    if_pos (within_continuation n), toNat_ofNat (by omega), payload_continuation,
    payload_continuation, hnumber]

theorem scan_four (h : 0x10000 ≤ n) (h' : n < 0x110000) (rest : List UInt8) :
    scan (.ofNat (0xF0 + n / 262144)) (.ofNat (0x80 + n / 4096 % 64) ::
      .ofNat (0x80 + n / 64 % 64) :: .ofNat (0x80 + n % 64) :: rest) = .char (Char.ofNat n) 3 := by
  have hsecond : within (secondOfFour (.ofNat (0xF0 + n / 262144))).1
      (secondOfFour (.ofNat (0xF0 + n / 262144))).2 (.ofNat (0x80 + n / 4096 % 64)) = true := by
    rw [secondOfFour, toNat_ofNat (by omega)]
    split
    · exact (within_ofNat (by omega)).2 (by omega)
    · split
      · exact (within_ofNat (by omega)).2 (by omega)
      · exact within_continuation _
  have hnumber : (0xF0 + n / 262144) % 8 * 262144 + n / 4096 % 64 * 4096 + n / 64 % 64 * 64 +
      n % 64 = n := by omega
  rw [scan, toNat_ofNat (by omega), if_neg (by omega), if_neg (by rw [within_ofNat] <;> omega),
    if_neg (by rw [within_ofNat] <;> omega), if_pos ((within_ofNat (by omega)).2 (by omega)),
    scanFour, if_pos hsecond, if_pos (within_continuation _), if_pos (within_continuation n),
    toNat_ofNat (by omega), payload_continuation, payload_continuation, payload_continuation, hnumber]

/-- **The bytes of a character are read as that character, whatever follows.** -/
theorem scan_encodeChar (c : Char) : ∃ b tail, encodeChar c = b :: tail ∧
    ∀ rest, scan b (tail ++ rest) = .char c tail.length := by
  -- there are no characters for surrogates
  have hvalid : c.toNat < 0xD800 ∨ 0xDFFF < c.toNat ∧ c.toNat < 0x110000 := c.valid
  have hchar : Char.ofNat c.toNat = c := Char.ofNat_toNat c
  unfold encodeChar
  dsimp only
  split
  · next h1 =>
    refine ⟨_, [], rfl, fun rest => ?_⟩
    rw [scan, toNat_ofNat (by omega), if_pos h1, hchar]
    rfl
  · split
    · refine ⟨_, [_], rfl, fun rest => ?_⟩
      exact (scan_two (by omega) (by omega) rest).trans (by rw [hchar]; rfl)
    · split
      · refine ⟨_, [_, _], rfl, fun rest => ?_⟩
        exact (scan_three (by omega) (by omega) (by omega) rest).trans (by rw [hchar]; rfl)
      · refine ⟨_, [_, _, _], rfl, fun rest => ?_⟩
        exact (scan_four (by omega) (by omega) rest).trans (by rw [hchar]; rfl)

theorem scan_encode_cons (c : Char) (cs : List Char) : ∃ b tail, encode (c :: cs) = b :: (tail ++ encode cs) ∧
    scan b (tail ++ encode cs) = .char c tail.length := by
  obtain ⟨b, tail, hbytes, hscan⟩ := scan_encodeChar c
  refine ⟨b, tail, ?_, hscan (encode cs)⟩
  rw [encode, List.flatMap_cons, hbytes]
  rfl

theorem decodeFrom_encode (index : Nat) (cs : List Char) : decodeFrom index (encode cs) = .ok cs := by
  induction cs generalizing index with
  | nil => simp [encode, decodeFrom]
  | cons c cs ih =>
    obtain ⟨b, tail, hcons, hscan⟩ := scan_encode_cons c cs
    rw [hcons, decodeFrom, hscan]
    dsimp only
    rw [List.drop_left, ih]
    rfl

/-- **Reading undoes writing.** -/
theorem decode_encode (cs : List Char) : decode (encode cs) = .ok cs := decodeFrom_encode 0 cs

theorem bytesOf_inj {s t : String} (h : bytesOf s = bytesOf t) : s = t := by
  have hdecode := decode_encode s.toList
  rw [show encode s.toList = encode t.toList from h, decode_encode] at hdecode
  exact String.toList_injective (Except.ok.inj hdecode).symm

theorem decodeLossy_encode (cs : List Char) : decodeLossy (encode cs) = cs := by
  induction cs with
  | nil => simp [encode, decodeLossy]
  | cons c cs ih =>
    obtain ⟨b, tail, hcons, hscan⟩ := scan_encode_cons c cs
    rw [hcons, decodeLossy, hscan]
    dsimp only
    rw [List.drop_left, ih]

theorem zero_notMem_encodeChar {c : Char} (h : c ≠ '\x00') : 0 ∉ encodeChar c := by
  have hpos : c.toNat ≠ 0 := fun hzero => h (Char.toNat_inj.1 hzero)
  have hvalid : c.toNat < 0xD800 ∨ 0xDFFF < c.toNat ∧ c.toNat < 0x110000 := c.valid
  have hbyte : ∀ {n}, n ≠ 0 → n < 256 → (0 : UInt8) ≠ .ofNat n := by
    intro n hn hlt heq
    have hzero := toNat_ofNat hlt
    rw [← heq] at hzero
    exact hn hzero.symm
  unfold encodeChar
  dsimp only
  split_ifs <;> simp only [List.mem_cons, List.not_mem_nil, or_false, not_or]
  · exact hbyte hpos (by omega)
  · exact ⟨hbyte (by omega) (by omega), hbyte (by omega) (by omega)⟩
  · exact ⟨hbyte (by omega) (by omega), hbyte (by omega) (by omega), hbyte (by omega) (by omega)⟩
  · exact ⟨hbyte (by omega) (by omega), hbyte (by omega) (by omega), hbyte (by omega) (by omega),
      hbyte (by omega) (by omega)⟩

/-- The bytes of a text up to the first zero are those of the text up to the first null. -/
theorem takeWhile_encode (cs : List Char) :
    (encode cs).takeWhile (· ≠ 0) = encode (cs.takeWhile (· ≠ '\x00')) := by
  induction cs with
  | nil => rfl
  | cons c cs ih =>
    by_cases hc : c = '\x00'
    · rw [hc]
      rfl
    · have hbytes : ∀ b ∈ encodeChar c, decide (b ≠ 0) = true := fun b hb =>
        decide_eq_true fun hzero => zero_notMem_encodeChar hc (hzero ▸ hb)
      have hencode : ∀ ds, encode (c :: ds) = encodeChar c ++ encode ds := fun _ => List.flatMap_cons
      rw [List.takeWhile_cons, if_pos (decide_eq_true hc), hencode, hencode,
        List.takeWhile_append_of_pos hbytes, ih]

/-! ## Only what is written is read -/

theorem within_iff {lo hi : Nat} {b : UInt8} : within lo hi b = true ↔ lo ≤ b.toNat ∧ b.toNat ≤ hi := by
  rw [within, Bool.and_eq_true, decide_eq_true_eq, decide_eq_true_eq]

theorem toNat_char {n : Nat} (h : n < 0xD800 ∨ 0xDFFF < n ∧ n < 0x110000) : (Char.ofNat n).toNat = n := by
  rw [Char.toNat_ofNat, if_pos h]

theorem ofNat_eq {b : UInt8} {n : Nat} (h : n = b.toNat) : UInt8.ofNat n = b := by
  rw [h, UInt8.ofNat_toNat]

variable {b : UInt8} {rest : List UInt8} {c : Char} {more : Nat}

/-- A character is written as bytes that the rest begins with, after the first byte. -/
def Written (b : UInt8) (rest : List UInt8) (c : Char) (more : Nat) : Prop :=
  ∃ tail, encodeChar c = b :: tail ∧ rest = tail ++ rest.drop more

theorem scanTwo_char (hb : 0xC2 ≤ b.toNat ∧ b.toNat ≤ 0xDF) (h : scanTwo b rest = .char c more) :
    Written b rest c more := by
  unfold scanTwo at h
  split at h
  · cases h
  · next x rest =>
    split at h
    · next hx =>
      cases h
      rw [within_iff] at hx
      refine ⟨[x], ?_, rfl⟩
      rw [encodeChar, payload, toNat_char (by omega), if_neg (by omega), if_pos (by omega),
        ofNat_eq (b := b) (by omega), ofNat_eq (b := x) (by omega)]
    · cases h

theorem secondOfThree_bounds {x : UInt8} (hx : within (secondOfThree b).1 (secondOfThree b).2 x = true) :
    0x80 ≤ x.toNat ∧ x.toNat ≤ 0xBF ∧ (b.toNat = 0xE0 → 0xA0 ≤ x.toNat) ∧
      (b.toNat = 0xED → x.toNat ≤ 0x9F) := by
  rw [within_iff] at hx
  unfold secondOfThree at hx
  split at hx
  · omega
  · split at hx <;> omega

theorem scanThree_char (hb : 0xE0 ≤ b.toNat ∧ b.toNat ≤ 0xEF) (h : scanThree b rest = .char c more) :
    Written b rest c more := by
  unfold scanThree at h
  split at h
  · cases h
  · next x rest =>
    split at h
    · next hx =>
      split at h
      · cases h
      · next y rest =>
        split at h
        · next hy =>
          cases h
          have hx := secondOfThree_bounds hx
          rw [within_iff] at hy
          refine ⟨[x, y], ?_, rfl⟩
          rw [encodeChar, payload, payload, toNat_char (by omega), if_neg (by omega), if_neg (by omega),
            if_pos (by omega), ofNat_eq (b := b) (by omega), ofNat_eq (b := x) (by omega),
            ofNat_eq (b := y) (by omega)]
        · cases h
    · cases h

theorem secondOfFour_bounds {x : UInt8} (hx : within (secondOfFour b).1 (secondOfFour b).2 x = true) :
    0x80 ≤ x.toNat ∧ x.toNat ≤ 0xBF ∧ (b.toNat = 0xF0 → 0x90 ≤ x.toNat) ∧
      (b.toNat = 0xF4 → x.toNat ≤ 0x8F) := by
  rw [within_iff] at hx
  unfold secondOfFour at hx
  split at hx
  · omega
  · split at hx <;> omega

theorem scanFour_char (hb : 0xF0 ≤ b.toNat ∧ b.toNat ≤ 0xF4) (h : scanFour b rest = .char c more) :
    Written b rest c more := by
  unfold scanFour at h
  split at h
  · cases h
  · next x rest =>
    split at h
    · next hx =>
      split at h
      · cases h
      · next y rest =>
        split at h
        · next hy =>
          split at h
          · cases h
          · next z rest =>
            split at h
            · next hz =>
              cases h
              have hx := secondOfFour_bounds hx
              rw [within_iff] at hy hz
              refine ⟨[x, y, z], ?_, rfl⟩
              rw [encodeChar, payload, payload, payload, toNat_char (by omega), if_neg (by omega),
                if_neg (by omega), if_neg (by omega), ofNat_eq (b := b) (by omega),
                ofNat_eq (b := x) (by omega), ofNat_eq (b := y) (by omega), ofNat_eq (b := z) (by omega)]
            · cases h
        · cases h
    · cases h

/-- **A character is read only where it is written.** -/
theorem scan_char (h : scan b rest = .char c more) : Written b rest c more := by
  unfold scan at h
  split at h
  · next hb =>
    cases h
    refine ⟨[], ?_, rfl⟩
    rw [encodeChar, toNat_char (by omega), if_pos hb, ofNat_eq rfl]
  split at h
  · next hb => exact scanTwo_char (within_iff.1 hb) h
  split at h
  · next hb => exact scanThree_char (within_iff.1 hb) h
  split at h
  · next hb => exact scanFour_char (within_iff.1 hb) h
  · cases h

theorem eq_encode_of_decodeFrom {index : Nat} {bytes : List UInt8} {cs : List Char}
    (h : decodeFrom index bytes = .ok cs) : bytes = encode cs := by
  fun_induction decodeFrom index bytes generalizing cs with
  | case1 index =>
    cases h
    rfl
  | case2 index b rest c more hscan ih =>
    obtain ⟨cs, hcs, rfl⟩ := Outcome.map_eq_ok.1 h
    obtain ⟨tail, hbytes, hrest⟩ := scan_char hscan
    rw [encode, List.flatMap_cons, hbytes, ← encode, ← ih hcs]
    exact congrArg (b :: ·) hrest
  | case3 => cases h
  | case4 => cases h

/-- **Bytes are read as a text only if they are the bytes of that text.** -/
theorem decode_eq_ok_iff {bytes : List UInt8} {cs : List Char} :
    decode bytes = .ok cs ↔ bytes = encode cs :=
  ⟨eq_encode_of_decodeFrom, fun h => h ▸ decode_encode cs⟩

end OpFusion.Utf8
