/-
  Blocks of code, moved to a level of indentation.

  A block is written with the indentation of the place that writes it. `reindent` drops one blank line
  at either end, takes the common indentation (the *margin*) from every line, and puts two blanks per
  level before each line that is not blank. The margin counts characters of the lines that are not
  blank, while it is taken off by bytes: a blank line whose white space has more than one byte per
  character may not have a character boundary there, and then there is no answer.
-/
import OpFusion.Text.Blank

namespace OpFusion.Text

/-- The characters that count as indentation. -/
def isIndent (c : Char) : Bool := c = ' ' || c = '\t'

/-- The number of characters that indent a line. -/
def indentOf (line : List Char) : Nat := (line.takeWhile isIndent).length

/-- The least indentation of the lines that are not blank. -/
def margin (lines : List (List Char)) : Nat :=
  ((lines.filter (!allBlank ·)).map indentOf).min?.getD 0

/-- The number of bytes of a text. -/
def byteLength (cs : List Char) : Nat := cs.foldr (·.utf8Size + ·) 0

/-- The text after its first `n` bytes, if a character starts there. -/
def dropBytes? : Nat → List Char → Option (List Char)
  | 0, cs => some cs
  | _ + 1, [] => none
  | n + 1, c :: cs => if c.utf8Size ≤ n + 1 then dropBytes? (n + 1 - c.utf8Size) cs else none

/-- A line without the margin. A line shorter than the margin, and every line if there is no margin,
loses all its leading white space. -/
def withoutMargin? (margin : Nat) (line : List Char) : Option (List Char) :=
  if 0 < margin ∧ margin ≤ byteLength line then dropBytes? margin line else some (trimStart line)

/-- The blanks before a line at a level. -/
def padding (level : Nat) : List Char := List.replicate (2 * level) ' '

/-- A line at its level, with its end; a blank line has neither blanks nor padding. -/
def placeLine? (level margin : Nat) (line : List Char) : Option (List Char) :=
  (withoutMargin? margin line).map fun body =>
    if allBlank body then ['\n'] else padding level ++ trimEnd body ++ ['\n']

/-- The lines without a blank first line. -/
def dropBlankHead : List (List Char) → List (List Char)
  | [] => []
  | line :: rest => if allBlank line then rest else line :: rest

/-- The lines without a blank last line. -/
def dropBlankLast (lines : List (List Char)) : List (List Char) :=
  if lines.getLast?.any allBlank then lines.dropLast else lines

/-- The lines of a block that are kept. -/
def blockLines (block : List Char) : List (List Char) :=
  dropBlankLast (dropBlankHead (pieces (· = '\n') block))

/-- A block at a level of indentation. -/
def reindent? (level : Nat) (block : List Char) : Option (List Char) :=
  if block = [] then some []
  else
    let lines := blockLines block
    (lines.mapM (placeLine? level (margin lines))).map List.flatten

/-- Lines at an indentation, with a line feed before them and the indentation after them: the form in
which the parts of the library write blocks. -/
def indented (indent : Nat) (lines : List String) : String :=
  let pad := String.ofList (List.replicate indent ' ')
  "\n" ++ String.join (lines.map fun line => pad ++ line ++ "\n") ++ pad

end OpFusion.Text
