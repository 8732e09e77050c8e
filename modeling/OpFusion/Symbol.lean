/-
  Names in generated code.

  `sanitize` makes any text an identifier. An application is named by its position and its kind, so
  graphs of one structure have the same names; a symbol of an application extends the application's
  name.
-/

namespace OpFusion.Symbol

/-- The characters of an identifier. -/
def isPart (c : Char) : Bool := c.isAlphanum || c = '_'

/-- The character that stands for `c` in an identifier. -/
def part (c : Char) : Char := if isPart c then c else '_'

/-- The identifier of a text: other characters become underscores, a digit in front gets one before
it, and the empty text is `op`. -/
def sanitizeChars : List Char → List Char
  | [] => ['o', 'p']
  | c :: cs => (if c.isDigit then ['_'] else []) ++ (c :: cs).map part

/-- `sanitizeChars` on strings. -/
def sanitize (s : String) : String := String.ofList (sanitizeChars s.toList)

/-- The name of the application at a position. -/
def application (position : Nat) (kind : String) : String :=
  "n" ++ toString position ++ "_" ++ sanitize kind

/-- The names of applications of the given kinds, in order. -/
def applications (kinds : List String) : List String :=
  kinds.mapIdx fun position kind => application position kind

/-- A symbol that belongs to one application. -/
def owned (application ofName : String) : String := application ++ "_" ++ sanitize ofName

end OpFusion.Symbol
