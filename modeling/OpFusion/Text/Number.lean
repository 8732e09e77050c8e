/-
  Numbers in text: decimal numbers below a bound, and bytes as pairs of hexadecimal digits.

  A number may have a plus sign before its digits, also where only two characters are read: `+f` is
  the byte `15`. A sign alone is no number.
-/

namespace OpFusion.Text

/-- The value of a decimal digit. -/
def decimalDigit? (c : Char) : Option Nat :=
  if '0' ≤ c ∧ c ≤ '9' then some (c.toNat - '0'.toNat) else none

/-- The value of a hexadecimal digit of either case. -/
def hexDigit? (c : Char) : Option Nat :=
  if '0' ≤ c ∧ c ≤ '9' then some (c.toNat - '0'.toNat)
  else if 'a' ≤ c ∧ c ≤ 'f' then some (c.toNat - 'a'.toNat + 10)
  else if 'A' ≤ c ∧ c ≤ 'F' then some (c.toNat - 'A'.toNat + 10)
  else none

/-- The number that digits write in a base, after the value of the digits before them. -/
def digitsFrom (base : Nat) (digit? : Char → Option Nat) (acc : Nat) : List Char → Option Nat
  | [] => some acc
  | c :: cs => (digit? c).bind fun d => digitsFrom base digit? (acc * base + d) cs

/-- A number of one or more digits, with or without a plus sign. -/
def number? (base : Nat) (digit? : Char → Option Nat) : List Char → Option Nat
  | [] => none
  | c :: cs =>
    if c = '+' then (if cs = [] then none else digitsFrom base digit? 0 cs)
    else digitsFrom base digit? 0 (c :: cs)

/-- A number less than `bound`. -/
def below (bound : Nat) (n : Nat) : Option Nat := if n < bound then some n else none

/-- The number of values of a machine word of 64 bits. -/
def wordValues : Nat := 0x10000000000000000

/-- A decimal number that fits in a word of 64 bits. -/
def word? (cs : List Char) : Option Nat := (number? 10 decimalDigit? cs).bind (below wordValues)

/-- A byte written in hexadecimal. -/
def hexByte? (cs : List Char) : Option UInt8 :=
  ((number? 16 hexDigit? cs).bind (below 256)).map UInt8.ofNat

/-- The digit of a value below sixteen. -/
def hexDigit (n : Nat) : Char :=
  if n < 10 then Char.ofNat ('0'.toNat + n) else Char.ofNat ('a'.toNat + (n - 10))

/-- The two digits of a byte. -/
def hexPair (b : UInt8) : List Char := [hexDigit (b.toNat / 16), hexDigit (b.toNat % 16)]

/-- Bytes in hexadecimal, two digits each. -/
def hex (bytes : List UInt8) : List Char := bytes.flatMap hexPair

/-- The bytes that consecutive pairs of characters write. -/
def hexBytes? : List Char → Option (List UInt8)
  | [] => some []
  | [_] => none
  | c :: d :: cs => (hexByte? [c, d]).bind fun b => (hexBytes? cs).map (b :: ·)

/-- The digits of a number in base `base`, at least one, the last digit first. -/
def digitsReversed (base : Nat) (h : 1 < base) (n : Nat) : List Nat :=
  if n < base then [n] else n % base :: digitsReversed base h (n / base)
termination_by n
decreasing_by exact Nat.div_lt_self (by omega) h

theorem one_lt_sixteen : 1 < 16 := by decide

/-- A number in hexadecimal without leading zeros. -/
def hexNumber (n : Nat) : List Char := (digitsReversed 16 one_lt_sixteen n).reverse.map hexDigit

end OpFusion.Text
