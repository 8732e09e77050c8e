/-
  The digits of keys.

  The digits of bytes are read back as these bytes, so a key is told by its digits (`Key.hex_inj`).
-/
import Mathlib
import OpFusion.Key

namespace OpFusion

namespace Text

theorem hexByte?_pair : ∀ n < 256,
    hexByte? [hexDigit (n / 16), hexDigit (n % 16)] = some (UInt8.ofNat n) := by
  decide +kernel

theorem hexByte?_hexPair (b : UInt8) : hexByte? (hexPair b) = some b := by
  have hpair := hexByte?_pair b.toNat b.toNat_lt
  rwa [UInt8.ofNat_toNat] at hpair

theorem hexBytes?_hex (bytes : List UInt8) : hexBytes? (hex bytes) = some bytes := by
  induction bytes with
  | nil => rfl
  | cons b bytes ih =>
    have hcons : hex (b :: bytes) =
        hexDigit (b.toNat / 16) :: hexDigit (b.toNat % 16) :: hex bytes := rfl
    rw [hcons, hexBytes?, show [hexDigit (b.toNat / 16), hexDigit (b.toNat % 16)] = hexPair b from rfl,
      hexByte?_hexPair, ih]
    rfl

theorem length_hex (bytes : List UInt8) : (hex bytes).length = 2 * bytes.length := by
  induction bytes with
  | nil => rfl
  | cons b bytes ih =>
    have hcons : hex (b :: bytes) = hexPair b ++ hex bytes := rfl
    rw [hcons, List.length_append, ih, List.length_cons]
    simp only [hexPair, List.length_cons, List.length_nil]
    omega

theorem hexDigit_mem : ∀ n < 16, hexDigit n ∈ "0123456789abcdef".toList := by decide +kernel

theorem mem_hex {bytes : List UInt8} {c : Char} (hc : c ∈ hex bytes) :
    c ∈ "0123456789abcdef".toList := by
  obtain ⟨b, -, hc⟩ := List.mem_flatMap.1 hc
  have hb := b.toNat_lt
  simp only [hexPair, List.mem_cons, List.not_mem_nil, or_false] at hc
  rcases hc with rfl | rfl
  · exact hexDigit_mem _ (by omega)
  · exact hexDigit_mem _ (by omega)

end Text

namespace Key

theorem toList_hex (k : Key) : k.hex.toList = Text.hex k.bytes := String.toList_ofList

theorem length_hexChars (k : Key) : (Text.hex k.bytes).length = 64 := by
  rw [Text.length_hex, k.length_bytes]

/-- **A key is told by its digits.** -/
theorem hex_inj {k j : Key} (h : k.hex = j.hex) : k = j := by
  have hdigits : Text.hex k.bytes = Text.hex j.bytes := by rw [← toList_hex, h, toList_hex]
  have hbytes : some k.bytes = some j.bytes := by
    rw [← Text.hexBytes?_hex, hdigits, Text.hexBytes?_hex]
  obtain ⟨bytes, hlength⟩ := k
  obtain ⟨bytes', hlength'⟩ := j
  cases Option.some.inj hbytes
  rfl

end Key

end OpFusion
