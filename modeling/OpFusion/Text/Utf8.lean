/-
  UTF-8: the bytes of a text, and the text of a list of bytes.

  `encode` writes each character in one to four bytes. `scan` reads the first character of a list of
  bytes by the table of well-formed sequences: no overlong form, no surrogate, nothing above
  `10FFFF`. `decode` reads all of them and says where the first ill-formed sequence starts and how
  long its maximal valid start is; `decodeLossy` writes one replacement character for each.
-/

namespace OpFusion.Utf8

/-- The bytes of one character. -/
def encodeChar (c : Char) : List UInt8 :=
  let n := c.toNat
  if n < 0x80 then [.ofNat n]
  else if n < 0x800 then [.ofNat (0xC0 + n / 64), .ofNat (0x80 + n % 64)]
  else if n < 0x10000 then
    [.ofNat (0xE0 + n / 4096), .ofNat (0x80 + n / 64 % 64), .ofNat (0x80 + n % 64)]
  else
    [.ofNat (0xF0 + n / 262144), .ofNat (0x80 + n / 4096 % 64), .ofNat (0x80 + n / 64 % 64),
      .ofNat (0x80 + n % 64)]

/-- The bytes of a text. -/
def encode (cs : List Char) : List UInt8 := cs.flatMap encodeChar

/-- What stands at the start of a list of bytes. -/
inductive Scan where
  /-- A character, and how many bytes it has after the first. -/
  | char (c : Char) (more : Nat)
  /-- A sequence that cannot be continued; the first `length` bytes are given up together. -/
  | malformed (length : Nat)
  /-- The start of a sequence that the end of the input cuts off. -/
  | cut
  deriving DecidableEq

/-- A byte between two bounds. -/
def within (lo hi : Nat) (b : UInt8) : Bool := lo ≤ b.toNat && b.toNat ≤ hi

/-- The low six bits of a continuation byte. -/
def payload (b : UInt8) : Nat := b.toNat % 64

/-- The bounds of the second byte after the first byte `b`, for a sequence of three bytes. -/
def secondOfThree (b : UInt8) : Nat × Nat :=
  if b.toNat = 0xE0 then (0xA0, 0xBF) else if b.toNat = 0xED then (0x80, 0x9F) else (0x80, 0xBF)

/-- The bounds of the second byte after the first byte `b`, for a sequence of four bytes. -/
def secondOfFour (b : UInt8) : Nat × Nat :=
  if b.toNat = 0xF0 then (0x90, 0xBF) else if b.toNat = 0xF4 then (0x80, 0x8F) else (0x80, 0xBF)

/-- Reads a sequence of two bytes that starts with `b`. -/
def scanTwo (b : UInt8) : List UInt8 → Scan
  | [] => .cut
  | x :: _ =>
    if within 0x80 0xBF x then .char (Char.ofNat (b.toNat % 32 * 64 + payload x)) 1
    else .malformed 1

/-- Reads a sequence of three bytes that starts with `b`. -/
def scanThree (b : UInt8) : List UInt8 → Scan
  | [] => .cut
  | x :: rest =>
    if within (secondOfThree b).1 (secondOfThree b).2 x then
      match rest with
      | [] => .cut
      | y :: _ =>
        if within 0x80 0xBF y then
          .char (Char.ofNat (b.toNat % 16 * 4096 + payload x * 64 + payload y)) 2
        else .malformed 2
    else .malformed 1

/-- Reads a sequence of four bytes that starts with `b`. -/
def scanFour (b : UInt8) : List UInt8 → Scan
  | [] => .cut
  | x :: rest =>
    if within (secondOfFour b).1 (secondOfFour b).2 x then
      match rest with
      | [] => .cut
      | y :: rest =>
        if within 0x80 0xBF y then
          match rest with
          | [] => .cut
          | z :: _ =>
            if within 0x80 0xBF z then
              .char (Char.ofNat
                (b.toNat % 8 * 262144 + payload x * 4096 + payload y * 64 + payload z)) 3
            else .malformed 3
        else .malformed 2
    else .malformed 1

/-- Reads the sequence that starts with `b` and goes on with the given bytes. -/
def scan (b : UInt8) (rest : List UInt8) : Scan :=
  if b.toNat < 0x80 then .char (Char.ofNat b.toNat) 0
  else if within 0xC2 0xDF b then scanTwo b rest
  else if within 0xE0 0xEF b then scanThree b rest
  else if within 0xF0 0xF4 b then scanFour b rest
  else .malformed 1

/-- Why a list of bytes is no text. -/
inductive Fault where
  /-- A sequence of `length` bytes at `index` that nothing can complete. -/
  | malformed (length index : Nat)
  /-- A sequence at `index` that the input ends inside. -/
  | incomplete (index : Nat)
  deriving DecidableEq

/-- The wording of a fault. -/
def Fault.message : Fault → String
  | .malformed length index => s!"invalid utf-8 sequence of {length} bytes from index {index}"
  | .incomplete index => s!"incomplete utf-8 byte sequence from index {index}"

/-- Reads the bytes from position `index` on. -/
def decodeFrom (index : Nat) : List UInt8 → Except Fault (List Char)
  | [] => .ok []
  | b :: rest =>
    match scan b rest with
    | .char c more => (decodeFrom (index + 1 + more) (rest.drop more)).map (c :: ·)
    | .malformed length => .error (.malformed length index)
    | .cut => .error (.incomplete index)
termination_by bytes => bytes.length
decreasing_by simp only [List.length_drop, List.length_cons]; omega

/-- The text of a list of bytes, or the first fault in it. -/
def decode (bytes : List UInt8) : Except Fault (List Char) := decodeFrom 0 bytes

/-- The character that stands for an ill-formed sequence. -/
def replacement : Char := Char.ofNat 0xFFFD

/-- The text of a list of bytes, with one `replacement` for each ill-formed sequence. -/
def decodeLossy : List UInt8 → List Char
  | [] => []
  | b :: rest =>
    match scan b rest with
    | .char c more => c :: decodeLossy (rest.drop more)
    | .malformed length => replacement :: decodeLossy (rest.drop (length - 1))
    | .cut => [replacement]
termination_by bytes => bytes.length
decreasing_by all_goals simp only [List.length_drop, List.length_cons]; omega

/-- The bytes of a string. -/
def bytesOf (s : String) : List UInt8 := encode s.toList

/-- The string of a list of bytes, read leniently. -/
def stringLossy (bytes : List UInt8) : String := String.ofList (decodeLossy bytes)

end OpFusion.Utf8
