/-
  Text inside comments of generated code: no end of a comment, and no line feed.
-/

namespace OpFusion.Source

/-- The text with a blank between each star and the slash that follows it. -/
def splitClosers : List Char → List Char
  | [] => []
  | '*' :: '/' :: cs => '*' :: ' ' :: '/' :: splitClosers cs
  | c :: cs => c :: splitClosers cs

/-- The text on one line. -/
def joinLines (cs : List Char) : List Char := cs.map fun c => if c = '\n' then ' ' else c

/-- The text as it may stand inside a comment. -/
def commentChars (cs : List Char) : List Char := joinLines (splitClosers cs)

/-- `commentChars` on strings. -/
def commentText (s : String) : String := String.ofList (commentChars s.toList)

end OpFusion.Source
