/-
  String literals of generated code.

  `escape` writes a text between the quotes of a literal: a backslash form for the backslash, the
  quote, the question mark (two of them could start a trigraph) and three control characters, and all
  other characters as they are. `literalBytes` is what such a text stands for, with every backslash form
  that there is, and `cText` is what the reader of the bytes sees: a text ends at its first null
  character. Letters before a literal may ask for wider units than bytes.
-/
import OpFusion.Text.Number
import OpFusion.Text.Utf8

namespace OpFusion.Source

/-! ## Writing -/

/-- A character inside a literal. -/
def escapeChar (c : Char) : List Char :=
  if c = '\\' then ['\\', '\\']
  else if c = '"' then ['\\', '"']
  else if c = '\n' then ['\\', 'n']
  else if c = '\r' then ['\\', 'r']
  else if c = '\t' then ['\\', 't']
  else if c = '?' then ['\\', '?']
  else [c]

/-- A text inside a literal. -/
def escapeChars (cs : List Char) : List Char := cs.flatMap escapeChar

/-- `escapeChars` on strings. -/
def escape (s : String) : String := String.ofList (escapeChars s.toList)

/-! ## Reading -/

/-- The character that a backslash and another character stand for. -/
def simpleEscape (c : Char) : Char :=
  if c = 'a' then '\x07'
  else if c = 'b' then '\x08'
  else if c = 't' then '\t'
  else if c = 'n' then '\n'
  else if c = 'v' then '\x0b'
  else if c = 'f' then '\x0c'
  else if c = 'r' then '\r'
  else if c = 'e' || c = 'E' then '\x1b'
  else c

/-- The value of an octal digit. -/
def octalDigit? (c : Char) : Option Nat :=
  if '0' ≤ c ∧ c ≤ '7' then some (c.toNat - '0'.toNat) else none

/-- What has been read of a backslash form. -/
inductive Escape where
  /-- Nothing: no form is open. -/
  | closed
  /-- The backslash. -/
  | backslash
  /-- A number of at most three octal digits. -/
  | octal (digits value : Nat)
  /-- A hexadecimal number. -/
  | hex (value : Nat)
  /-- The number of a character, of which some hexadecimal digits are left. -/
  | character (left value : Nat)
  deriving DecidableEq

namespace Escape

/-- The units of a form that ends here: `encode` says what a character becomes, `unit` what a number
becomes. -/
def units {α : Type} (encode : Char → List α) (unit : Nat → α) : Escape → List α
  | octal _ value => [unit value]
  | hex value => [unit value]
  | character _ value => encode (Char.ofNat value)
  | _ => []

/-- The form with one more digit, if it goes on so. -/
def extend? (c : Char) : Escape → Option Escape
  | octal digits value =>
    if digits < 3 then (octalDigit? c).map fun d => octal (digits + 1) (8 * value + d) else none
  | hex value => (Text.hexDigit? c).map fun d => hex (16 * value + d)
  | character (left + 1) value => (Text.hexDigit? c).map fun d => character left (16 * value + d)
  | _ => none

/-- The form that starts with a backslash and a character, unless that is all of it. -/
def start? (c : Char) : Option Escape :=
  if c = 'x' then some (hex 0)
  else if c = 'u' then some (character 4 0)
  else if c = 'U' then some (character 8 0)
  else (octalDigit? c).map (octal 1)

end Escape

/-- The units that the rest of a literal stands for. -/
def literalFrom {α : Type} (encode : Char → List α) (unit : Nat → α) : Escape → List Char → List α
  | e, [] => e.units encode unit
  | .backslash, c :: cs =>
    match Escape.start? c with
    | some e => literalFrom encode unit e cs
    | none => encode (simpleEscape c) ++ literalFrom encode unit .closed cs
  | e, c :: cs =>
    match e.extend? c with
    | some e => literalFrom encode unit e cs
    | none =>
      e.units encode unit ++
        if c = '\\' then literalFrom encode unit .backslash cs
        else encode c ++ literalFrom encode unit .closed cs

/-- The bytes that the text between the quotes of a literal stands for. -/
def literalBytes (cs : List Char) : List UInt8 := literalFrom Utf8.encodeChar UInt8.ofNat .closed cs

/-- The part of a text before its first null character. -/
def cText (s : String) : String := String.ofList (s.toList.takeWhile (· ≠ '\x00'))

/-! ## Wider units -/

/-- The units of a literal, by the letters before it. -/
inductive Encoding where
  /-- Bytes. -/
  | plain
  /-- Bytes, and they say so. -/
  | utf8
  /-- Words of 16 bits without a sign. -/
  | half
  /-- Words of 32 bits without a sign. -/
  | full
  /-- Words of 32 bits. -/
  | wide
  deriving DecidableEq

namespace Encoding

/-- The units that a word before a literal asks for. -/
def ofWord? : String → Option Encoding
  | "u8" => some utf8
  | "u" => some half
  | "U" => some full
  | "L" => some wide
  | _ => none

/-- The word that asks for the units. -/
def word : Encoding → String
  | plain => ""
  | utf8 => "u8"
  | half => "u"
  | full => "U"
  | wide => "L"

/-- Whether the units are bytes. -/
def isNarrow (e : Encoding) : Bool := e = plain || e = utf8

/-- The units of a character. -/
def ofChar (e : Encoding) (c : Char) : List Nat :=
  let n := c.toNat
  match e with
  | plain | utf8 => (Utf8.encodeChar c).map (·.toNat)
  | half =>
    if n < 0x10000 then [n] else [0xD800 + (n - 0x10000) / 0x400, 0xDC00 + (n - 0x10000) % 0x400]
  | full | wide => [n]

/-- The number of values of a unit. -/
def limit : Encoding → Nat
  | plain | utf8 => 0x100
  | half => 0x10000
  | full | wide => 0x100000000

/-- The units that the text between the quotes of a literal stands for. -/
def units (e : Encoding) (cs : List Char) : List Nat :=
  literalFrom e.ofChar (· % e.limit) .closed cs

end Encoding

end OpFusion.Source
