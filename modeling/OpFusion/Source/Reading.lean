/-
  Readers of tokens.

  Names of types have to be known while one reads, so they are kept beside the tokens that are left.
-/
import OpFusion.Source.Constant
import OpFusion.Source.Token

namespace OpFusion.Source

/-! ## Words -/

/-- Words that say that a value does not change. -/
def constantWords : List String := ["const", "__const", "__const__"]

/-- Words that say how a variable is kept, and that do not change its type. -/
def ignoredWords : List String :=
  ["volatile", "__volatile", "__volatile__", "restrict", "__restrict", "__restrict__", "register",
    "auto", "inline", "__inline", "__inline__", "_Noreturn", "_Thread_local", "__thread", "extern",
    "__extension__"]

/-- Words that name types of floating-point numbers on their own. -/
def realWords : List (String × CType) :=
  [("_Float32", .real .single), ("_Float64", .real .double), ("_Float32x", .real .double),
    ("_Float64x", .real .extended), ("_Float128", .real .extended), ("__float128", .real .extended),
    ("__float80", .real .extended), ("_Decimal32", .real .single), ("_Decimal64", .real .double),
    ("_Decimal128", .real .extended), ("_Float16", .integer .halfWord), ("__bf16", .integer .halfWord)]

/-- Words for numbers with two parts. -/
def complexWords : List String := ["_Complex", "__complex", "__complex__"]

/-- Words that name types together. -/
def typeWords : List String :=
  ["void", "char", "short", "int", "long", "signed", "unsigned", "float", "double", "_Bool",
    "__signed", "__signed__", "__int128"] ++ complexWords ++ realWords.map (·.1)

/-- The type of integers that words name. -/
def intTypeOfWords (words : List String) : IntType :=
  let unsigned : Bool := "unsigned" ∈ words
  let signed := words.any (· ∈ ["signed", "__signed", "__signed__"])
  if "char" ∈ words then if unsigned || signed then { bits := 8, unsigned } else .char
  else if "short" ∈ words then { bits := 16, unsigned }
  else if "__int128" ∈ words then { bits := 128, unsigned }
  else match words.count "long" with
    | 0 => { bits := 32, unsigned }
    | 1 => { bits := 64, unsigned }
    | _ => { bits := 64, unsigned, twin := true }

/-- The type that words name. -/
def typeOfWords (words : List String) : CType :=
  let plain : CType :=
    if "void" ∈ words then .void
    else if "_Bool" ∈ words then .bool
    else if "float" ∈ words then .real .single
    else if "double" ∈ words then .real (if "long" ∈ words then .extended else .double)
    else match words.findSome? (fun word => realWords.lookup word) with
      | some t => t
      | none =>
        if words.all (· ∈ complexWords) then .real .double else .integer (intTypeOfWords words)
  if words.any (· ∈ complexWords) then .array plain (some 2) else plain

/-- Words that ask for the type of an expression. -/
def typeofWords : List String := ["typeof", "__typeof__", "__typeof"]

/-! ## Readers -/

/-- What a reader works on: the names of types so far, and the tokens that are left. -/
structure Reading where
  types : Types
  rest : List Token

/-- A reader, which may refuse. -/
abbrev Parser : Type → Type := StateT Reading Option

/-- What attributes say about a type. -/
structure Attributes where
  packed : Bool := false
  /-- A number that divides the address. -/
  alignment : Nat := 1
  /-- The number of bytes of a vector. -/
  vector : Option Nat := none

/-- What is read before a declared name. -/
structure Specifiers where
  isStatic : Bool := false
  isName : Bool := false
  isConstant : Bool := false
  words : List String := []
  type : Option CType := none
  attributes : Attributes := {}

/-- A declared name: what is made of the type before it, and the parameters, if it is a function. -/
structure Declarator where
  name : Option String := none
  wrap : CType → CType := id
  params : Option (List (String × CType)) := none

namespace Attributes

/-- The attributes of two places together. -/
def join (a b : Attributes) : Attributes :=
  ⟨a.packed || b.packed, max a.alignment b.alignment, a.vector.or b.vector⟩

/-- The number that tokens start with, in parentheses. -/
def numberIn? : List Token → Option Nat
  | .mark "(" :: .number text :: _ => (constant? text.toList).map (·.value.toNat)
  | _ => none

/-- What the tokens of attributes say. -/
def ofTokens : List Token → Attributes
  | [] => {}
  | .name "packed" :: ts | .name "__packed__" :: ts => { ofTokens ts with packed := true }
  | .name "aligned" :: ts | .name "__aligned__" :: ts =>
    let rest := ofTokens ts
    { rest with alignment := max rest.alignment ((numberIn? ts).getD 16) }
  | .name "vector_size" :: ts | .name "__vector_size__" :: ts =>
    { ofTokens ts with vector := numberIn? ts }
  | _ :: ts => ofTokens ts

/-- The type of vectors of values of a type, if attributes ask for it. -/
def apply (a : Attributes) (types : Types) (t : CType) : CType :=
  match a.vector, t.size? types with
  | some bytes, some size => .array t (some (bytes / max 1 size))
  | _, _ => t

end Attributes

namespace Specifiers

/-- The type, if there are words for one. -/
def type? (s : Specifiers) (types : Types) : Option CType :=
  let t := s.type.or (if s.words.isEmpty then none else some (typeOfWords s.words))
  t.map fun t =>
    let t := s.attributes.apply types t
    if s.isConstant then .constant t.bare else t

/-- Whether a type has been read. -/
def hasType (s : Specifiers) : Bool := s.type.isSome || !s.words.isEmpty

end Specifiers

namespace Parser

/-! ## Tokens -/

/-- Takes the next token. -/
def next : Parser Token := do
  match (← get).rest with
  | t :: ts =>
    modify fun s => { s with rest := ts }
    return t
  | [] => failure

/-- Whether a token comes next. -/
def sees (t : Token) : Parser Bool := do return (← get).rest.head? = some t

/-- Takes a token if it comes next. -/
def accept (t : Token) : Parser Bool := do
  if ← sees t then
    let _ ← next
    return true
  return false

/-- Takes a mark if it comes next. -/
def mark (text : String) : Parser Bool := accept (.mark text)

/-- Takes a mark. -/
def expect (text : String) : Parser Unit := do
  unless ← mark text do failure

/-- Takes a word if it comes next. -/
def word (text : String) : Parser Bool := accept (.name text)

/-- Takes a name. -/
def name : Parser String := do
  let .name id ← next | failure
  return id

/-- Takes words of a list as long as they come; says whether one of them is in another list. -/
def wordsOf (words marked : List String) : (fuel : Nat) → Parser Bool
  | 0 => failure
  | fuel + 1 => do
    let s ← get
    match s.rest with
    | .name id :: ts =>
      if id ∈ words then
        set { s with rest := ts }
        let more ← wordsOf words marked fuel
        return more || id ∈ marked
      else return false
    | _ => return false

/-- Takes a mark as often as it comes; gives how often. -/
def countMarks (text : String) : (fuel : Nat) → Parser Nat
  | 0 => failure
  | fuel + 1 => do if ← mark text then return (← countMarks text fuel) + 1 else return 0

/-- The type that a name stands for. -/
def typeNamed? (id : String) : Parser (Option CType) := do return (← get).types.names.lookup id

/-! ## Types -/

/-- Whether a word can start a type. -/
def startsType (types : Types) (id : String) : Bool :=
  id ∈ ignoredWords || id ∈ constantWords || id ∈ typeWords ||
    id ∈ ["static", "typedef", "struct", "union", "enum", "__attribute__", "__attribute", "_Atomic",
      "_Alignas"] ||
    (types.names.lookup id).isSome

/-- Whether tokens start with a type in parentheses. -/
def startsTypeIn (types : Types) : List Token → Bool
  | .mark "(" :: .name id :: _ => startsType types id
  | _ => false

/-- Gives a name to a type. -/
def nameType (id : String) (t : CType) : Parser Unit :=
  modify fun s => { s with types := { s.types with names := (id, t) :: s.types.names } }

/-- Gives a layout to a tag. -/
def setLayout (tag : String) (l : Layout) : Parser Unit :=
  modify fun s => { s with types := { s.types with layouts := (tag, l) :: s.types.layouts } }

/-- Gives a name to a number. -/
def nameConstant (id : String) (n : Int) : Parser Unit :=
  modify fun s => { s with types := { s.types with constants := (id, n) :: s.types.constants } }

/-- A tag that no record has. -/
def newTag : Parser String := do return "#" ++ toString (← get).types.layouts.length

/-- The tokens up to the parenthesis that closes an open one, after others in reverse, and the tokens
after it. -/
def splitParenthesis : (depth : Nat) → (acc : List Token) → List Token → List Token × List Token
  | _, acc, [] => (acc.reverse, [])
  | depth, acc, t :: ts =>
    if t = .mark "(" then splitParenthesis (depth + 1) (t :: acc) ts
    else if t = .mark ")" then
      match depth with
      | 0 => (acc.reverse, ts)
      | depth + 1 => splitParenthesis depth (t :: acc) ts
    else splitParenthesis depth (t :: acc) ts

/-- Words before what is said about a declared name in parentheses. -/
def attributeWords : List String :=
  ["__attribute__", "__attribute", "asm", "__asm__", "__asm"]

/-- Reads attributes as long as they come. -/
def attributes : (fuel : Nat) → Parser Attributes
  | 0 => failure
  | fuel + 1 => do
    let s ← get
    match s.rest with
    | .name id :: .mark "(" :: ts =>
      if id ∈ attributeWords then
        let (inside, rest) := splitParenthesis 0 [] ts
        set { s with rest }
        return (Attributes.ofTokens inside).join (← attributes fuel)
      else return {}
    | _ => return {}

/-- Passes over what is no command. -/
def skip : Parser (List Command) := do
  let s ← get
  let ts := s.rest.dropWhile (!isBoundary ·)
  set { s with rest := if ts.head? = some (Token.mark ";") then ts.drop 1 else ts }
  return []

end Parser

end OpFusion.Source
