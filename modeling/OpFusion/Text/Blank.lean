/-
  White space, in the sense of the Unicode property `White_Space`.

  * `isBlank` is the class, `trim`, `trimStart` and `trimEnd` drop its characters at the ends;
  * `words` are the maximal runs of characters outside the class;
  * `pieces` cuts a text at every character of a class, and `lines` are the lines of a text: a line
    feed, or a carriage return and a line feed, ends a line, and a last line may lack its end.
-/

namespace OpFusion.Text

/-- The characters of the Unicode property `White_Space`. -/
def isBlank (c : Char) : Bool :=
  let n := c.toNat
  (9 ≤ n && n ≤ 13) || n == 0x20 || n == 0x85 || n == 0xA0 || n == 0x1680 ||
    (0x2000 ≤ n && n ≤ 0x200A) || n == 0x2028 || n == 0x2029 || n == 0x202F || n == 0x205F ||
    n == 0x3000

/-- The text without its leading white space. -/
def trimStart (cs : List Char) : List Char := cs.dropWhile isBlank

/-- The text without its trailing white space. -/
def trimEnd (cs : List Char) : List Char := (cs.reverse.dropWhile isBlank).reverse

/-- The text without white space at either end. -/
def trim (cs : List Char) : List Char := trimEnd (trimStart cs)

/-- A text of white space only. -/
def allBlank (cs : List Char) : Bool := cs.all isBlank

/-- The pieces between the characters of a class: one more than there are such characters. -/
def pieces (p : Char → Bool) : List Char → List (List Char)
  | [] => [[]]
  | c :: cs =>
    if p c then [] :: pieces p cs
    else match pieces p cs with
      | [] => [[c]]
      | w :: ws => (c :: w) :: ws

/-- The maximal runs of characters that are not white space. -/
def words (cs : List Char) : List (List Char) := (pieces isBlank cs).filter (· ≠ [])

/-- A line without the carriage return before its end. -/
def dropReturn (line : List Char) : List Char :=
  if line.getLast? = some '\r' then line.dropLast else line

/-- Lines from the pieces between line feeds: the last piece has no line feed, and is no line if it
is empty. -/
def linesOfPieces : List (List Char) → List (List Char)
  | [] => []
  | [last] => if last = [] then [] else [last]
  | line :: rest => dropReturn line :: linesOfPieces rest

/-- The lines of a text, without their ends. -/
def lines (cs : List Char) : List (List Char) := linesOfPieces (pieces (· = '\n') cs)

/-- `trim` on strings. -/
def trimmed (s : String) : String := String.ofList (trim s.toList)

end OpFusion.Text
