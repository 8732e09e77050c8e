/-
  Lines of generated code.

  A line end after a backslash, and blanks between them, joins two lines. A comment counts as a blank.
  Wherever line ends are taken out, as many follow the line, so that the lines after it keep their
  numbers.
-/
import OpFusion.Source.Token
import OpFusion.Text.Search

namespace OpFusion.Source.Line

/-! ## Joined lines -/

/-- A character that may stand between a backslash and the end of its line. -/
def isGap (c : Char) : Bool := c ∈ [' ', '\t', '\x0b', '\x0c', '\r', '\x00']

/-- The text with lines joined, after a text in reverse. `held` is a backslash with the blanks after it,
in reverse, and `ends` is the number of line ends that are taken out. -/
def joinedFrom : (held : List Char) → (ends : Nat) → (acc : List Char) → List Char → List Char
  | held, _, acc, [] => (held ++ acc).reverse
  | held, ends, acc, c :: cs =>
    if c = '\n' then
      if held.isEmpty then joinedFrom [] 0 (List.replicate (ends + 1) '\n' ++ acc) cs
      else joinedFrom [] (ends + 1) acc cs
    else if c = '\\' then joinedFrom [c] ends (held ++ acc) cs
    else if !held.isEmpty && isGap c then joinedFrom (c :: held) ends acc cs
    else joinedFrom [] ends (c :: (held ++ acc)) cs

/-- The text with lines joined. -/
def joined (cs : List Char) : List Char := joinedFrom [] 0 [] cs

/-! ## Comments -/

/-- Where a text is. -/
inductive Mode where
  | code
  | comment
  | lineComment
  | quoted (quote : Char)
  /-- Before the parenthesis of a literal that is taken as it stands, after some of its text. -/
  | opening (acc : List Char)
  /-- In a literal that is taken as it stands, up to a text. -/
  | raw (closing : List Char)
  /-- So many characters before the end of a literal. -/
  | dropping (count : Nat)
  /-- In the number of a character, of which so many digits are left. -/
  | digits (left value : Nat)

/-- Whether a quote after a text in reverse starts a literal that is taken as it stands. -/
def startsRaw : List Char → Bool
  | 'R' :: acc => ["", "L", "u", "U", "u8"].contains (String.ofList (acc.takeWhile isNameChar).reverse)
  | _ => false

/-- A character of a literal that is taken as it stands, in reverse. -/
def rawChar (c : Char) : List Char :=
  if c = '\n' then ['n', '\\'] else if c = '"' || c = '\\' then [c, '\\'] else [c]

/-- The text without comments, after a text in reverse; so many line ends are taken out. -/
def plainFrom : Mode → (ends : Nat) → (acc : List Char) → List Char → List Char
  | _, _, acc, [] => acc.reverse
  | .code, ends, acc, '/' :: '*' :: cs => plainFrom .comment ends (' ' :: acc) cs
  | .code, ends, acc, '/' :: '/' :: cs => plainFrom .lineComment ends acc cs
  | .code, ends, acc, '\\' :: 'u' :: cs => plainFrom (.digits 4 0) ends acc cs
  | .code, ends, acc, '\\' :: 'U' :: cs => plainFrom (.digits 8 0) ends acc cs
  | .code, ends, acc, c :: cs =>
    if c = '\n' then plainFrom .code 0 (List.replicate (ends + 1) c ++ acc) cs
    else if c = '"' && startsRaw acc then plainFrom (.opening []) ends (c :: acc.drop 1) cs
    else plainFrom (if c = '"' || c = '\x27' then .quoted c else .code) ends (c :: acc) cs
  | .comment, ends, acc, '*' :: '/' :: cs => plainFrom .code ends acc cs
  | .comment, ends, acc, c :: cs => plainFrom .comment (if c = '\n' then ends + 1 else ends) acc cs
  | .lineComment, ends, acc, c :: cs =>
    if c = '\n' then plainFrom .code 0 (List.replicate (ends + 1) c ++ acc) cs
    else plainFrom .lineComment ends acc cs
  | .quoted quote, ends, acc, '\\' :: c :: cs => plainFrom (.quoted quote) ends (c :: '\\' :: acc) cs
  | .quoted quote, ends, acc, c :: cs =>
    if c = '\n' then plainFrom .code 0 (List.replicate (ends + 1) c ++ acc) cs
    else plainFrom (if c = quote then .code else .quoted quote) ends (c :: acc) cs
  | .opening delimiter, ends, acc, c :: cs =>
    if c = '(' then plainFrom (.raw (')' :: (delimiter.reverse ++ ['"']))) ends acc cs
    else plainFrom (.opening (c :: delimiter)) ends acc cs
  | .raw closing, ends, acc, c :: cs =>
    if closing.isPrefixOf (c :: cs) then plainFrom (.dropping (closing.length - 2)) ends acc cs
    else plainFrom (.raw closing) (if c = '\n' then ends + 1 else ends) (rawChar c ++ acc) cs
  | .dropping 0, ends, acc, c :: cs => plainFrom .code ends (c :: acc) cs
  | .dropping (count + 1), ends, acc, _ :: cs => plainFrom (.dropping count) ends acc cs
  | .digits left value, ends, acc, c :: cs =>
    let value := 16 * value + (Text.hexDigit? c).getD 0
    if left ≤ 1 then plainFrom .code ends (Char.ofNat value :: acc) cs
    else plainFrom (.digits (left - 1) value) ends acc cs

/-- The lines of a text, without comments. -/
def all (text : String) : List (List Char) :=
  Text.pieces (· = '\n') (plainFrom .code 0 [] (joined text.toList))

/-- The text after a number sign at the start of a line: its first word, and the rest. -/
def directive? (line : List Char) : Option (String × List Char) :=
  let word (cs : List Char) : String × List Char :=
    let cs := cs.dropWhile isSpace
    (String.ofList (cs.takeWhile isNameChar), (cs.dropWhile isNameChar).dropWhile isSpace)
  match line.dropWhile isSpace with
  | '#' :: cs | '%' :: ':' :: cs => some (word cs)
  | _ => none

end OpFusion.Source.Line
