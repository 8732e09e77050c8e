/-
  Keys: the content addresses of modules.

  A key is 32 bytes. It is written as 64 hexadecimal digits, and keys are ordered as their bytes are.
  Reading takes the digits in pairs, each pair as a number of its own.
-/
import OpFusion.Error
import OpFusion.Text.Number

namespace OpFusion

/-- A content address. -/
structure Key where
  bytes : List UInt8
  length_bytes : bytes.length = 32
  deriving DecidableEq

namespace Key

/-- The key of 32 bytes of one value. -/
def fill (b : UInt8) : Key := ⟨List.replicate 32 b, List.length_replicate⟩

/-- The key of a list of bytes, if it has the right length. -/
def ofBytes? (bytes : List UInt8) : Option Key :=
  if h : bytes.length = 32 then some ⟨bytes, h⟩ else none

/-- The digits of a key. -/
def hexChars (k : Key) : List Char := Text.hex k.bytes

/-- The digits of a key, as a string. -/
def hex (k : Key) : String := String.ofList k.hexChars

/-- The first two digits, which name the directory of a stored artifact. -/
def shard (k : Key) : String := String.ofList (Text.hex (k.bytes.take 1))

/-- The key in displays of data. -/
def debug (k : Key) : String := "CacheKey(" ++ k.hex ++ ")"

instance : LT Key := ⟨fun a b => a.bytes < b.bytes⟩

instance : DecidableLT Key := fun a b => inferInstanceAs (Decidable (a.bytes < b.bytes))

/-- Keys in ascending order. -/
def sort (ks : List Key) : List Key := ks.mergeSort fun a b => !decide (b < a)

/-- Why a text is no key. -/
inductive Fault where
  /-- It does not have 64 bytes of ASCII text. -/
  | length (text : String)
  /-- A pair of its characters is no byte. -/
  | digits (text : String)
  deriving DecidableEq

/-- The wording of a fault. -/
def Fault.message : Fault → String
  | .length text => "cache key must be 64 hex digits, got '" ++ text ++ "'"
  | .digits text => "cache key '" ++ text ++ "' is not hexadecimal"

theorem length_of_hexBytes? {cs : List Char} {bytes : List UInt8}
    (h : Text.hexBytes? cs = some bytes) : cs.length = 2 * bytes.length := by
  fun_induction Text.hexBytes? cs generalizing bytes with
  | case1 => simp_all
  | case2 => simp at h
  | case3 c d cs ih =>
    cases hb : Text.hexByte? [c, d] with
    | none => simp [hb] at h
    | some b =>
      simp only [hb, Option.bind_some, Option.map_eq_some_iff] at h
      obtain ⟨bs, hbs, rfl⟩ := h
      simp [ih hbs]
      omega

/-- The key that a text writes. -/
def ofHex? (s : String) : Except Fault Key :=
  let cs := s.toList
  if h : cs.length = 64 ∧ cs.all (·.toNat < 128) then
    match hb : Text.hexBytes? cs with
    | some bytes => .ok ⟨bytes, by have := length_of_hexBytes? hb; omega⟩
    | none => .error (.digits s)
  else .error (.length s)

/-- The error of a fault. -/
def Fault.toError (f : Fault) : Error := .serialization f.message

end Key

end OpFusion
