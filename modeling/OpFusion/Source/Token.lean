/-
  Tokens of generated code.

  White space and comments are dropped. Names, constants, literals and punctuation are taken as long as
  they go. A constant keeps the text that writes it; its value is found when it is used.
-/
import OpFusion.Source.Floating
import OpFusion.Source.Literal
import OpFusion.Text.Blank
import OpFusion.Text.Search

namespace OpFusion.Source

/-- A token. -/
inductive Token where
  | name (text : String)
  /-- A number, as it is written. -/
  | number (text : String)
  /-- A constant between single quotes. -/
  | character (e : Encoding) (text : List Char)
  /-- A literal, by the text between its quotes. -/
  | literal (e : Encoding) (text : List Char)
  | mark (text : String)
  deriving DecidableEq

/-! ## Characters -/

/-- A character between tokens. -/
def isSpace (c : Char) : Bool := Text.isBlank c || c = '\x00'

/-- A character of a name: letters and digits, two marks, and whatever is no mark beyond ASCII. -/
def isNameChar (c : Char) : Bool :=
  c.isAlphanum || c = '_' || c = '$' || (0x80 ≤ c.toNat && !Text.isBlank c)

/-! ## Integer constants -/

/-- The letters that may stand after the digits of a constant. -/
def isSuffixLetter (c : Char) : Bool := c ∈ ['u', 'U', 'l', 'L']

/-- The types that a constant may have, the first of which holds it. Decimal digits do not change the
sign by themselves. -/
def constantTypes (decimal : Bool) (suffix : List Char) : List IntType :=
  let unsigned := suffix.any (· ∈ ['u', 'U'])
  let wide := suffix.any (· ∈ ['l', 'L'])
  let twin := suffix.countP (· ∈ ['l', 'L']) = 2
  ([IntType.int, .unsignedInt, .long, .unsignedLong].filter fun t =>
    (t.unsigned || !unsigned) && (!t.unsigned || unsigned || !decimal) && (t.bits = 64 || !wide)).map
    fun t => { t with twin }

/-- A constant with its type: the low 64 bits, in a type that is wide enough for them. -/
def typed (decimal : Bool) (suffix : List Char) (n : Nat) : Integer :=
  let low : Nat := n % 0x10000000000000000
  .ofInt (((constantTypes decimal suffix).find? (·.holds low)).getD { bits := 128 }) low

/-- The value of a binary digit. -/
def binaryDigit? (c : Char) : Option Nat :=
  if c = '0' then some 0 else if c = '1' then some 1 else none

/-- The constant that hexadecimal, binary, octal or decimal digits and a suffix write. -/
def constant? (cs : List Char) : Option Integer :=
  let suffix := (cs.reverse.takeWhile isSuffixLetter).reverse
  match (cs.reverse.dropWhile isSuffixLetter).reverse with
  | '0' :: 'x' :: digits => (Text.digitsFrom 16 Text.hexDigit? 0 digits).map (typed false suffix)
  | '0' :: 'X' :: digits => (Text.digitsFrom 16 Text.hexDigit? 0 digits).map (typed false suffix)
  | '0' :: 'b' :: digits => (Text.digitsFrom 2 binaryDigit? 0 digits).map (typed false suffix)
  | '0' :: 'B' :: digits => (Text.digitsFrom 2 binaryDigit? 0 digits).map (typed false suffix)
  | '0' :: digits => (Text.digitsFrom 8 octalDigit? 0 digits).map (typed false suffix)
  | digits => (Text.digitsFrom 10 Text.decimalDigit? 0 digits).map (typed true suffix)

/-! ## Floating-point constants -/

/-- What may stand after a floating-point constant, and the type that it chooses. -/
def realSuffixes : List (String × FloatType) :=
  [("f128", .extended), ("f64x", .extended), ("f32x", .double), ("f64", .double), ("f32", .single),
    ("df", .single), ("dd", .double), ("dl", .extended), ("f", .single), ("l", .extended),
    ("w", .extended), ("q", .extended), ("d", .double)]

/-- The type that the letters after a floating-point constant choose, and the text before them. -/
def splitRealType (cs : List Char) : List Char × FloatType :=
  let lower := (cs.map Char.toLower).reverse
  match realSuffixes.find? fun (suffix, _) => suffix.toList.reverse.isPrefixOf lower with
  | some (suffix, t) => (cs.take (cs.length - suffix.length), t)
  | none => (cs, .double)

/-- The number that digits with or without a sign write. -/
def signed? : List Char → Option Int
  | '-' :: cs => (Text.digitsFrom 10 Text.decimalDigit? 0 cs).map fun n => -(n : Int)
  | '+' :: cs => (Text.digitsFrom 10 Text.decimalDigit? 0 cs).map Int.ofNat
  | cs => (Text.digitsFrom 10 Text.decimalDigit? 0 cs).map Int.ofNat

/-- The digits and the exponent of a constant: what stands before and after one of two letters. The
digits after the point lower the exponent, by so many steps each. -/
def scientific? (base : Nat) (digit? : Char → Option Nat) (letters : List Char) (steps : Nat)
    (cs : List Char) : Option (Nat × Int) := do
  let digits := cs.takeWhile (· ∉ letters)
  let whole := digits.takeWhile (· ≠ '.')
  let fraction := (digits.dropWhile (· ≠ '.')).drop 1
  let m ← Text.digitsFrom base digit? 0 (whole ++ fraction)
  let e ← signed? ((cs.dropWhile (· ∉ letters)).drop 1)
  return (m, e - (steps * fraction.length : Nat))

/-- The floating-point constant that a text writes. -/
def realConstant? (cs : List Char) : Option Floating :=
  match cs with
  | '0' :: 'x' :: rest | '0' :: 'X' :: rest =>
    let (text, t) := splitRealType rest
    (scientific? 16 Text.hexDigit? ['p', 'P'] 4 text).map fun (m, e) =>
      .ofFloat t ((Float.ofNat m).scaleB e)
  | _ =>
    let (text, t) := splitRealType cs
    (scientific? 10 Text.decimalDigit? ['e', 'E'] 1 text).map fun (m, e) =>
      .ofFloat t (Float.ofScientific m (e < 0) e.natAbs)

/-! ## Character constants -/

/-- The type of a constant between single quotes. -/
def characterType : Encoding → IntType
  | .plain | .wide => .int
  | .utf8 => .byte
  | .half => .halfWord
  | .full => .unsignedInt

/-- The constant that a text between single quotes writes: one byte with its sign, the last bytes of
several, or the last one of wider units. -/
def characterConstant (e : Encoding) (cs : List Char) : Integer :=
  let t := characterType e
  if e = .plain then
    match literalBytes cs with
    | [b] => .ofInt t (IntType.char.wrap b.toNat)
    | bytes => .ofInt t (bytes.foldl (fun acc b => acc * 256 + b.toNat) 0 : Nat)
  else .ofInt t ((e.units cs).getLast?.getD 0)

/-! ## Runs of characters -/

/-- Whether a number starts here: a digit, or a point before one. -/
def startsNumber (c : Char) (cs : List Char) : Bool :=
  c.isDigit || (c = '.' && cs.head?.any Char.isDigit)

/-- The rest of a number, which may have a sign after the letter of an exponent, and the text after
it. -/
def splitNumber : List Char → List Char × List Char
  | c :: d :: cs =>
    if c ∈ ['e', 'E', 'p', 'P'] && d ∈ ['+', '-'] then
      let (number, rest) := splitNumber cs
      (c :: d :: number, rest)
    else if isNameChar c || c = '.' then
      let (number, rest) := splitNumber (d :: cs)
      (c :: number, rest)
    else ([], c :: d :: cs)
  | [c] => if isNameChar c || c = '.' then ([c], []) else ([], [c])
  | [] => ([], [])

/-- Marks of more than one character, longer ones first. -/
def longMarks : List String :=
  ["%:%:", "<<=", ">>=", "...", "->", "++", "--", "<<", ">>", "<=", ">=", "==", "!=", "&&", "||", "+=",
    "-=", "*=", "/=", "%=", "&=", "^=", "|=", "##", "<:", ":>", "<%", "%>", "%:"]

/-- Marks that may be written in another way. -/
def otherMarks : List (String × String) :=
  [("<:", "["), (":>", "]"), ("<%", "\x7b"), ("%>", "\x7d"), ("%:", "#"), ("%:%:", "##")]

/-- The mark that a text starts with, as it is written. -/
def markAt (c : Char) (cs : List Char) : String :=
  (longMarks.find? fun m => m.toList.isPrefixOf (c :: cs)).getD (String.singleton c)

/-- The text before the quote that ends a literal, and the text after it. -/
def splitQuoted (quote : Char) : List Char → List Char × List Char
  | [] => ([], [])
  | '\\' :: c :: cs =>
    let (body, rest) := splitQuoted quote cs
    ('\\' :: c :: body, rest)
  | c :: cs =>
    if c = quote then ([], cs)
    else
      let (body, rest) := splitQuoted quote cs
      (c :: body, rest)

/-- The text after the end of a comment. -/
def afterComment : List Char → List Char
  | '*' :: '/' :: cs => cs
  | _ :: cs => afterComment cs
  | [] => []

theorem length_splitQuoted_le (quote : Char) (cs : List Char) :
    (splitQuoted quote cs).2.length ≤ cs.length := by
  fun_induction splitQuoted quote cs with
  | case1 => simp
  | case2 c cs body rest h ih => simp_all; omega
  | case3 cs h => simp
  | case4 c cs h hc body rest hs ih => simp_all; omega

theorem length_splitNumber_le (cs : List Char) : (splitNumber cs).2.length ≤ cs.length := by
  fun_induction splitNumber cs with
  | case1 c d cs h number rest hs ih => simp_all; omega
  | case2 c d cs h hn number rest hs ih => simp_all; omega
  | case3 => simp
  | case4 => simp
  | case5 => simp
  | case6 => simp

theorem length_afterComment_le (cs : List Char) : (afterComment cs).length ≤ cs.length := by
  fun_induction afterComment cs with
  | case1 cs => simp; omega
  | case2 c cs h ih => simp; omega
  | case3 => simp

theorem length_dropWhile_le (p : Char → Bool) (cs : List Char) :
    (cs.dropWhile p).length ≤ cs.length :=
  (List.dropWhile_sublist p).length_le

/-- A name, or a literal or a constant between quotes if the name asks for its units, and the text
after it. -/
def nameOrQuoted (id : String) (rest : List Char) : Token × List Char :=
  match Encoding.ofWord? id, rest with
  | some e, '"' :: cs => (.literal e (splitQuoted '"' cs).1, (splitQuoted '"' cs).2)
  | some e, '\x27' :: cs => (.character e (splitQuoted '\x27' cs).1, (splitQuoted '\x27' cs).2)
  | _, rest => (.name id, rest)

theorem length_nameOrQuoted_le (id : String) (rest : List Char) :
    (nameOrQuoted id rest).2.length ≤ rest.length := by
  unfold nameOrQuoted
  split
  · rename_i cs _
    have := length_splitQuoted_le '"' cs
    simp only [List.length_cons]; omega
  · rename_i cs _
    have := length_splitQuoted_le '\x27' cs
    simp only [List.length_cons]; omega
  · exact Nat.le_refl _

/-! ## Scanning -/

/-- The tokens of a text after others, which are given in reverse. -/
def tokensFrom (acc : List Token) : List Char → List Token
  | [] => acc.reverse
  | '/' :: '*' :: cs => tokensFrom acc (afterComment cs)
  | '/' :: '/' :: cs => tokensFrom acc (cs.dropWhile (· ≠ '\n'))
  | '"' :: cs => tokensFrom (.literal .plain (splitQuoted '"' cs).1 :: acc) (splitQuoted '"' cs).2
  | '\x27' :: cs =>
    tokensFrom (.character .plain (splitQuoted '\x27' cs).1 :: acc) (splitQuoted '\x27' cs).2
  | c :: cs =>
    if isSpace c then tokensFrom acc cs
    else if startsNumber c cs then
      tokensFrom (.number (String.ofList (c :: (splitNumber cs).1)) :: acc) (splitNumber cs).2
    else if isNameChar c then
      let scanned :=
        nameOrQuoted (String.ofList (c :: cs.takeWhile isNameChar)) (cs.dropWhile isNameChar)
      tokensFrom (scanned.1 :: acc) scanned.2
    else
      let m := markAt c cs
      tokensFrom (.mark ((otherMarks.lookup m).getD m) :: acc) (cs.drop (m.length - 1))
termination_by cs => cs.length
decreasing_by
  · have := length_afterComment_le cs
    simp only [List.length_cons]; omega
  · have := length_dropWhile_le (· ≠ '\n') cs
    simp only [List.length_cons]; omega
  · have := length_splitQuoted_le '"' cs
    simp only [List.length_cons]; omega
  · have := length_splitQuoted_le '\x27' cs
    simp only [List.length_cons]; omega
  · simp
  · have := length_splitNumber_le cs
    simp only [List.length_cons]; omega
  · have := length_dropWhile_le isNameChar cs
    have := length_nameOrQuoted_le (String.ofList (c :: cs.takeWhile isNameChar))
      (cs.dropWhile isNameChar)
    simp only [List.length_cons]; omega
  · simp only [List.length_drop, List.length_cons]; omega

/-- The tokens of a text. -/
def tokens (cs : List Char) : List Token := tokensFrom [] cs

/-- The text that writes a token. -/
def Token.text : Token → String
  | name text | number text | mark text => text
  | character e text => e.word ++ "'" ++ String.ofList text ++ "'"
  | literal e text => e.word ++ "\"" ++ String.ofList text ++ "\""

/-- The marks at which a statement ends or a block starts or ends. -/
def isBoundary (t : Token) : Bool := t ∈ [.mark ";", .mark "\x7b", .mark "\x7d"]

/-- The texts of the literals that tokens start with, which stand side by side, with the units that one
of them asks for, and the tokens after them. -/
def literals : List Token → Encoding × List (List Char) × List Token
  | .literal e text :: ts =>
    let (other, texts, ts) := literals ts
    (if e = .plain then other else e, text :: texts, ts)
  | ts => (.plain, [], ts)

end OpFusion.Source
