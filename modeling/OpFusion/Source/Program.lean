/-
  What global code defines: abbreviations, types, functions and variables.

  Every module starts from `Program.standard`.
-/
import OpFusion.Source.Abbreviation

namespace OpFusion.Source

/-- A variable of global code. -/
structure Global where
  type : CType
  value : Option Initial

/-- What global code defines. -/
structure Program where
  abbreviations : Abbreviation.State := {}
  types : Types := {}
  functions : List (String × Function) := []
  /-- The variables, in the order in which they are declared. -/
  globals : List (String × Global) := []

namespace Program

/-- The program with the variables of declarations. -/
def declare (p : Program) (declarations : List Command) : Program :=
  { p with globals := p.globals ++ declarations.filterMap fun
      | .declare _ type name value => some (name, ⟨type, value⟩)
      | _ => none }

/-- A function after what stands before its name, or declarations. -/
def definition (fuel : Nat) (p : Program) : Parser Program := do
  let s ← Parser.specifiers fuel {}
  let some t := s.type? (← get).types | failure
  let start ← get
  if let .mark ";" :: ts := start.rest then
    set { start with rest := ts }
    return p
  let d ← Parser.declarator fuel
  match d.name, d.params with
  | some name, some params =>
    if ← Parser.mark "\x7b" then
      let body ← Parser.commands fuel
      Parser.expect "\x7d"
      match d.wrap t with
      | .function result => return { p with functions := (name, ⟨result, params, body⟩) :: p.functions }
      | _ => return p
    else
      set start
      return p.declare (← Parser.declared fuel s t)
  | _, _ =>
    set start
    return p.declare (← Parser.declared fuel s t)

/-- Passes over what is no definition: at least one token, up to a semicolon. -/
def skip : Parser Unit := do
  let s ← get
  set { s with rest := (s.rest.dropWhile (· ≠ Token.mark ";")).drop 1 }

/-- All definitions of the tokens that are left. -/
def definitions : (fuel : Nat) → Program → Parser Program
  | 0, p => return p
  | fuel + 1, p => do
    if (← get).rest.isEmpty then return p
    let p ← definition fuel p <|> (do skip; return p)
    definitions fuel p

/-- The program with the definitions of a text. -/
def add (p : Program) (text : String) : Program :=
  let (ts, abbreviations) := Abbreviation.unfolded p.abbreviations text
  match (definitions (8 * ts.length + 64) p).run ⟨p.types, ts⟩ with
  | some (q, s) => { q with abbreviations, types := s.types }
  | none => { p with abbreviations }

/-- The commands that a text in braces writes, and the names of types after them. -/
def commands (p : Program) (text : String) : List Command × Types :=
  let ts := [Token.mark "\x7b"] ++ (Abbreviation.unfolded p.abbreviations text).1 ++ [.mark "\x7d"]
  match (Parser.commands (8 * ts.length + 64)).run ⟨p.types, ts⟩ with
  | some (cs, s) => (cs, s.types)
  | none => ([], p.types)

/-- The expression that a text writes, and the names of types after it. -/
def expression? (p : Program) (text : String) : Option (Expr × Types) :=
  let ts := (Abbreviation.unfolded p.abbreviations text).1
  match (Parser.assignment (8 * ts.length + 64)).run ⟨p.types, ts⟩ with
  | some (e, s) => some (e, s.types)
  | none => none

/-- The function with a name. -/
def function? (p : Program) (name : String) : Option Function := p.functions.lookup name

/-- The line that an abbreviation on the command line stands for. -/
def definitionLine (text : List Char) : String :=
  let name := text.takeWhile (· ≠ '=')
  "#define " ++ String.ofList name ++ " " ++
    (if name = text then "1" else String.ofList (text.drop (name.length + 1)))

/-- The lines that flags of the compiler stand for. -/
def flagLines : List String → List String
  | [] => []
  | "-D" :: text :: flags => definitionLine text.toList :: flagLines flags
  | "-U" :: name :: flags => ("#undef " ++ name) :: flagLines flags
  | flag :: flags =>
    match flag.toList with
    | '-' :: 'D' :: text => definitionLine text :: flagLines flags
    | '-' :: 'U' :: name => ("#undef " ++ String.ofList name) :: flagLines flags
    | _ => flagLines flags

/-- What is known from the start. -/
def standard : Program :=
  ({} : Program).add ("\n".intercalate (Header.known.map ("#define " ++ ·)))

end Program

end OpFusion.Source
