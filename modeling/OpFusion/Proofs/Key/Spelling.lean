/-
  Which texts are read as keys.

  A plus sign before a digit is read as a zero (`Text.hexByte?_plus`). So the texts of keys are 64 digits of
  either case, with plus signs in place of some digits that begin a pair, and a key is written with the
  digits of its text in lower case and with zeros for the signs (`Key.ofHex_iff_digits`).
-/
import OpFusion.Proofs.Key

namespace OpFusion

namespace Text

variable {c d : Char} {cs : List Char} {b : UInt8} {bytes : List UInt8}

/-! ## Digits -/

/-- A hexadecimal digit of either case. -/
def isHexDigit (c : Char) : Bool :=
  ('0' ≤ c && c ≤ '9') || ('a' ≤ c && c ≤ 'f') || ('A' ≤ c && c ≤ 'F')

/-- The digit that is written for a digit or a sign. -/
def canonicalDigit (c : Char) : Char := if c = '+' then '0' else c.toLower

theorem ne_plus_of_isHexDigit (h : isHexDigit c = true) : c ≠ '+' := by
  rintro rfl
  exact absurd h (by decide)

theorem canonicalDigit_of_isHexDigit (h : isHexDigit c = true) : canonicalDigit c = c.toLower :=
  if_neg (ne_plus_of_isHexDigit h)

theorem isSome_hexDigit? (c : Char) : (hexDigit? c).isSome = isHexDigit c := by
  unfold hexDigit? isHexDigit
  grind

theorem toNat_lt_of_isHexDigit (h : isHexDigit c = true) : c.toNat < 128 := by
  have hle : ∀ d : Char, c ≤ d → c.toNat ≤ d.toNat := fun d hd => hd
  simp only [isHexDigit, Bool.or_eq_true, Bool.and_eq_true, decide_eq_true_eq] at h
  rcases h with (h | h) | h
  · exact Nat.lt_of_le_of_lt (hle '9' h.2) (by decide)
  · exact Nat.lt_of_le_of_lt (hle 'f' h.2) (by decide)
  · exact Nat.lt_of_le_of_lt (hle 'F' h.2) (by decide)

/-- The value of a digit is written as the digit in lower case. -/
theorem hexDigit_of_hexDigit? {n : Nat} (h : hexDigit? c = some n) : n < 16 ∧ hexDigit n = c.toLower := by
  have hascii : ∀ m < 128, ∀ v ∈ hexDigit? (Char.ofNat m), v < 16 ∧ hexDigit v = (Char.ofNat m).toLower := by
    decide +kernel
  have hdigit : isHexDigit c = true := by rw [← isSome_hexDigit?, h]; rfl
  have hvalue := hascii c.toNat (toNat_lt_of_isHexDigit hdigit)
  rw [Char.ofNat_toNat] at hvalue
  exact hvalue n h

/-! ## Pairs -/

/-- A plus sign before a digit is read as a zero. -/
theorem hexByte?_plus (d : Char) : hexByte? ['+', d] = hexByte? ['0', d] := by
  simp [hexByte?, number?, digitsFrom, hexDigit?]

/-- Two digits are a byte, which is written with these digits. -/
theorem exists_hexByte? (hc : isHexDigit c = true) (hd : isHexDigit d = true) :
    ∃ b, hexByte? [c, d] = some b ∧ hexPair b = [c.toLower, d.toLower] := by
  have hsign := ne_plus_of_isHexDigit hc
  rw [← isSome_hexDigit?, Option.isSome_iff_exists] at hc hd
  obtain ⟨u, hu⟩ := hc
  obtain ⟨v, hv⟩ := hd
  obtain ⟨hu16, hc⟩ := hexDigit_of_hexDigit? hu
  obtain ⟨hv16, hd⟩ := hexDigit_of_hexDigit? hv
  refine ⟨.ofNat (u * 16 + v), ?_, ?_⟩
  · have hbelow : u * 16 + v < 256 := by omega
    simp [hexByte?, number?, digitsFrom, hsign, hu, hv, below, hbelow]
  · have hvalue : (UInt8.ofNat (u * 16 + v)).toNat = u * 16 + v := by
      rw [UInt8.toNat_ofNat', Nat.mod_eq_of_lt (by omega)]
    rw [hexPair, hvalue, show (u * 16 + v) / 16 = u by omega, show (u * 16 + v) % 16 = v by omega, hc, hd]

theorem isHexDigit_of_hexByte? (hsign : c ≠ '+') (h : hexByte? [c, d] = some b) :
    isHexDigit c = true ∧ isHexDigit d = true := by
  obtain ⟨n, hn, -⟩ := Option.map_eq_some_iff.1 h
  obtain ⟨m, hm, -⟩ := Option.bind_eq_some_iff.1 hn
  rw [number?, if_neg hsign] at hm
  obtain ⟨u, hu, hrest⟩ := Option.bind_eq_some_iff.1 hm
  obtain ⟨v, hv, -⟩ := Option.bind_eq_some_iff.1 hrest
  rw [← isSome_hexDigit?, ← isSome_hexDigit?, hu, hv]
  exact ⟨rfl, rfl⟩

/-- Two digits are read as the byte that is written with them. -/
theorem hexByte?_eq_some_iff_of_isHexDigit (hc : isHexDigit c = true) (hd : isHexDigit d = true) :
    hexByte? [c, d] = some b ↔ hexPair b = [c.toLower, d.toLower] := by
  obtain ⟨b', hb', hpair⟩ := exists_hexByte? hc hd
  rw [hb', ← hpair]
  constructor
  · intro h
    rw [Option.some.inj h]
  · intro h
    rw [← hexByte?_hexPair b', ← h, hexByte?_hexPair]

/-- **A pair is a byte if it is two digits, or a plus sign and a digit.** -/
theorem hexByte?_eq_some_iff : hexByte? [c, d] = some b ↔
    (isHexDigit c = true ∨ c = '+') ∧ isHexDigit d = true ∧
      hexPair b = [canonicalDigit c, canonicalDigit d] := by
  by_cases hsign : c = '+'
  · subst hsign
    have hzero : isHexDigit '0' = true := by decide
    rw [hexByte?_plus]
    constructor
    · intro h
      have hd := (isHexDigit_of_hexByte? (by decide) h).2
      refine ⟨.inr rfl, hd, ?_⟩
      rw [(hexByte?_eq_some_iff_of_isHexDigit hzero hd).1 h, canonicalDigit_of_isHexDigit hd]
      rfl
    · rintro ⟨-, hd, hpair⟩
      rw [canonicalDigit_of_isHexDigit hd] at hpair
      exact (hexByte?_eq_some_iff_of_isHexDigit hzero hd).2 hpair
  · constructor
    · intro h
      obtain ⟨hc, hd⟩ := isHexDigit_of_hexByte? hsign h
      refine ⟨.inl hc, hd, ?_⟩
      rw [(hexByte?_eq_some_iff_of_isHexDigit hc hd).1 h, canonicalDigit_of_isHexDigit hc,
        canonicalDigit_of_isHexDigit hd]
    · rintro ⟨hc, hd, hpair⟩
      have hc := hc.resolve_right hsign
      rw [canonicalDigit_of_isHexDigit hc, canonicalDigit_of_isHexDigit hd] at hpair
      exact (hexByte?_eq_some_iff_of_isHexDigit hc hd).2 hpair

/-! ## Texts -/

/-- Digits in pairs, with plus signs in place of digits that begin a pair. -/
def Paired (cs : List Char) : Prop :=
  ∀ i c, cs[i]? = some c → isHexDigit c = true ∨ c = '+' ∧ i % 2 = 0

theorem paired_cons_cons : Paired (c :: d :: cs) ↔
    (isHexDigit c = true ∨ c = '+') ∧ isHexDigit d = true ∧ Paired cs := by
  constructor
  · intro h
    refine ⟨(h 0 c rfl).imp_right (·.1), (h 1 d rfl).resolve_right (by simp), fun i x hx => ?_⟩
    exact (h (i + 2) x hx).imp_right fun ⟨hsign, hi⟩ => ⟨hsign, by omega⟩
  · rintro ⟨hc, hd, hcs⟩ (_ | _ | i) x hx
    · cases hx
      exact hc.imp_right (⟨·, rfl⟩)
    · cases hx
      exact .inl hd
    · exact (hcs i x hx).imp_right fun ⟨hsign, hi⟩ => ⟨hsign, by omega⟩

theorem paired_iff_of_notMem (h : '+' ∉ cs) : Paired cs ↔ ∀ c ∈ cs, isHexDigit c = true := by
  constructor
  · intro hcs c hc
    obtain ⟨i, hi⟩ := List.mem_iff_getElem?.1 hc
    exact (hcs i c hi).resolve_right fun hsign => h (hsign.1 ▸ hc)
  · exact fun hcs i c hi => .inl (hcs c (List.mem_of_getElem? hi))

/-- A text is read as the bytes that are written with its digits. -/
theorem hex_of_hexBytes? (h : hexBytes? cs = some bytes) : Paired cs ∧ hex bytes = cs.map canonicalDigit := by
  fun_induction hexBytes? cs generalizing bytes with
  | case1 =>
    cases h
    exact ⟨by simp [Paired], rfl⟩
  | case2 => cases h
  | case3 c d cs ih =>
    obtain ⟨b, hb, hrest⟩ := Option.bind_eq_some_iff.1 h
    obtain ⟨bytes, hbytes, rfl⟩ := Option.map_eq_some_iff.1 hrest
    obtain ⟨hc, hd, hpair⟩ := hexByte?_eq_some_iff.1 hb
    obtain ⟨hcs, hhex⟩ := ih hbytes
    have hcons : hex (b :: bytes) = hexPair b ++ hex bytes := rfl
    exact ⟨paired_cons_cons.2 ⟨hc, hd, hcs⟩, by rw [hcons, hpair, hhex]; rfl⟩

theorem exists_hexBytes? (h : Paired cs) (hlength : cs.length % 2 = 0) : ∃ bytes, hexBytes? cs = some bytes := by
  fun_induction hexBytes? cs with
  | case1 => exact ⟨[], rfl⟩
  | case2 => cases hlength
  | case3 c d cs ih =>
    obtain ⟨hc, hd, hcs⟩ := paired_cons_cons.1 h
    obtain ⟨bytes, hbytes⟩ := ih hcs (by simpa [Nat.add_assoc] using hlength)
    have hpair : ∃ b, hexByte? [c, d] = some b := by
      rcases hc with hc | rfl
      · exact (exists_hexByte? hc hd).imp fun _ hb => hb.1
      · rw [hexByte?_plus]
        exact (exists_hexByte? (by decide) hd).imp fun _ hb => hb.1
    obtain ⟨b, hb⟩ := hpair
    exact ⟨b :: bytes, by rw [hb, hbytes]; rfl⟩

theorem Paired.toNat_lt (h : Paired cs) : ∀ c ∈ cs, c.toNat < 128 := by
  intro c hc
  obtain ⟨i, hi⟩ := List.mem_iff_getElem?.1 hc
  rcases h i c hi with hdigit | ⟨rfl, -⟩
  · exact toNat_lt_of_isHexDigit hdigit
  · decide

end Text

/-! ## Keys -/

namespace Key

/-- A text is a key if it has 64 characters of ASCII that are read as its bytes. -/
theorem ofHex?_eq_ok_iff {s : String} {k : Key} : ofHex? s = .ok k ↔
    s.toList.length = 64 ∧ (∀ c ∈ s.toList, c.toNat < 128) ∧ Text.hexBytes? s.toList = some k.bytes := by
  have hguard : (s.toList.length = 64 ∧ (s.toList.all (·.toNat < 128)) = true) ↔
      s.toList.length = 64 ∧ ∀ c ∈ s.toList, c.toNat < 128 := by simp
  unfold ofHex?
  dsimp only
  split
  · next h =>
    have hascii := hguard.1 h
    split
    · next bytes hbytes =>
      obtain ⟨bytes', hlength'⟩ := k
      constructor
      · intro hk
        cases hk
        exact ⟨hascii.1, hascii.2, hbytes⟩
      · intro hk
        cases hbytes.symm.trans hk.2.2
        rfl
    · next hnone => simp [hnone]
  · next h =>
    constructor
    · intro hok
      cases hok
    · exact fun ⟨hlength, hascii, _⟩ => absurd (hguard.2 ⟨hlength, hascii⟩) h

theorem exists_ofHex?_iff (s : String) : (∃ k, ofHex? s = .ok k) ↔
    s.toList.length = 64 ∧ Text.Paired s.toList := by
  constructor
  · rintro ⟨k, hk⟩
    obtain ⟨hlength, -, hbytes⟩ := ofHex?_eq_ok_iff.1 hk
    exact ⟨hlength, (Text.hex_of_hexBytes? hbytes).1⟩
  · rintro ⟨hlength, hpaired⟩
    obtain ⟨bytes, hbytes⟩ := Text.exists_hexBytes? hpaired (by rw [hlength])
    have h32 : bytes.length = 32 := by
      have := length_of_hexBytes? hbytes
      omega
    exact ⟨⟨bytes, h32⟩, ofHex?_eq_ok_iff.2 ⟨hlength, hpaired.toNat_lt, hbytes⟩⟩

theorem hex_of_ofHex? {s : String} {k : Key} (h : ofHex? s = .ok k) : k.hex = s.map Text.canonicalDigit := by
  obtain ⟨-, -, hbytes⟩ := ofHex?_eq_ok_iff.1 h
  rw [← String.toList_inj, toList_hex, String.toList_map]
  exact (Text.hex_of_hexBytes? hbytes).2

/-- **The texts of keys.** A text is read as a key if it is 64 hexadecimal digits, or has plus signs in place
of some digits that begin a pair, and the key is written with the digits of the text in lower case, and
zeros for the signs. Without signs these are the texts of 64 hexadecimal digits. -/
theorem ofHex_iff_digits (s : String) :
    ((∃ k, ofHex? s = .ok k) ↔ s.length = 64 ∧
      ∀ i c, s.toList[i]? = some c → Text.isHexDigit c = true ∨ c = '+' ∧ i % 2 = 0) ∧
    (∀ k, ofHex? s = .ok k → k.hex = s.map Text.canonicalDigit) ∧
    ('+' ∉ s.toList →
      ((∃ k, ofHex? s = .ok k) ↔ s.length = 64 ∧ ∀ c ∈ s.toList, Text.isHexDigit c = true) ∧
      ∀ k, ofHex? s = .ok k → k.hex = s.toLower) := by
  have haccepted := exists_ofHex?_iff s
  rw [String.length_toList] at haccepted
  refine ⟨haccepted, fun k => hex_of_ofHex?, fun hsigns => ⟨?_, fun k hk => ?_⟩⟩
  · rw [haccepted, Text.paired_iff_of_notMem hsigns]
  · have hlower : ∀ c ∈ s.toList, Text.canonicalDigit c = c.toLower := fun c hc =>
      if_neg (ne_of_mem_of_not_mem hc hsigns)
    rw [hex_of_ofHex? hk, ← String.toList_inj, String.toLower, String.toList_map, String.toList_map]
    exact List.map_congr_left hlower

/-- Digits of both cases. -/
def mixed : String := String.ofList (List.replicate 32 ['A', 'b']).flatten

/-- Digits of both cases are read, and written in lower case. -/
theorem ofHex_mixed : '+' ∉ mixed.toList ∧ ∃ k, ofHex? mixed = .ok k ∧ k.hex = mixed.toLower := by
  have hlist : mixed.toList = (List.replicate 32 ['A', 'b']).flatten := String.toList_ofList
  have hmem : ∀ c ∈ mixed.toList, c = 'A' ∨ c = 'b' := by
    intro c hc
    obtain ⟨l, hl, hc⟩ := List.mem_flatten.1 (hlist ▸ hc)
    rw [List.eq_of_mem_replicate hl] at hc
    simpa using hc
  have hsigns : '+' ∉ mixed.toList := fun h => absurd (hmem _ h) (by decide)
  have hdigits : ∀ c ∈ mixed.toList, Text.isHexDigit c = true := by
    intro c hc
    rcases hmem c hc with rfl | rfl <;> decide
  obtain ⟨-, -, hplain⟩ := ofHex_iff_digits mixed
  obtain ⟨haccepted, hhex⟩ := hplain hsigns
  obtain ⟨k, hk⟩ := haccepted.2 ⟨by rw [← String.length_toList, hlist]; rfl, hdigits⟩
  exact ⟨hsigns, k, hk, hhex k hk⟩

/-- A text with a sign in it. -/
def signed : String := String.ofList ('+' :: 'f' :: List.replicate 62 '0')

/-- A text with a sign is read as a key, though it is not 64 hexadecimal digits. -/
theorem ofHex_signed : ¬ ((∃ k, ofHex? signed = .ok k) ↔
    signed.length = 64 ∧ ∀ c ∈ signed.toList, Text.isHexDigit c = true) := by
  have hlist : signed.toList = '+' :: 'f' :: List.replicate 62 '0' := String.toList_ofList
  have hzeros : Text.Paired (List.replicate 62 '0') := by
    refine (Text.paired_iff_of_notMem (by simp)).2 fun c hc => ?_
    rw [List.eq_of_mem_replicate hc]
    decide
  have hread : ∃ k, ofHex? signed = .ok k := by
    rw [exists_ofHex?_iff, hlist]
    exact ⟨by simp, Text.paired_cons_cons.2 ⟨.inr rfl, by decide, hzeros⟩⟩
  intro h
  exact absurd ((h.1 hread).2 '+' (by rw [hlist]; simp)) (by decide)

end Key

end OpFusion
