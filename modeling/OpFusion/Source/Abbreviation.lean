/-
  Abbreviations: names that stand for tokens, and the lines that define them.

  A line that starts with a number sign is no code: it defines or drops an abbreviation, brings in the
  lines of a header, or says whether the lines after it count. An abbreviation is not replaced inside its
  own replacement, so a token is kept with the names that it came from.
-/
import OpFusion.Source.Header
import OpFusion.Source.Line
import OpFusion.Source.Parser
import OpFusion.Table

namespace OpFusion.Source

/-- What a name stands for; with parameters, it stands for something only before arguments. -/
structure Abbreviation where
  params : Option (List String) := none
  /-- The last parameter takes all arguments that are left. -/
  takesRest : Bool := false
  body : List Token
  deriving DecidableEq

namespace Abbreviation

/-- The name of a last parameter that has none of its own. -/
def restName : String := "__VA_ARGS__"

/-- The parameters that tokens name, and whether the last one takes the rest. -/
def paramsOf : List Token → List String × Bool
  | [] => ([], false)
  | .name id :: .mark "..." :: _ => ([id], true)
  | .mark "..." :: _ => ([restName], true)
  | .name id :: ts =>
    let (params, takesRest) := paramsOf ts
    (id :: params, takesRest)
  | _ :: ts => paramsOf ts

/-- The abbreviation that a line defines. -/
def ofDefinition (cs : List Char) : String × Abbreviation :=
  let name := String.ofList (cs.takeWhile isNameChar)
  match cs.dropWhile isNameChar with
  | '(' :: rest =>
    let (params, takesRest) := paramsOf (tokens (rest.takeWhile (· ≠ ')')))
    (name, ⟨some params, takesRest, tokens ((rest.dropWhile (· ≠ ')')).drop 1)⟩)
  | rest => (name, ⟨none, false, tokens rest⟩)

/-! ## Arguments -/

/-- A token with the names that are not replaced any more in it. -/
abbrev Item : Type := Token × List String

/-- Tokens in which names are not replaced any more. -/
def without (hidden : List String) (ts : List Token) : List Item := ts.map fun t => (t, hidden)

/-- The arguments up to the closing parenthesis and what stands after them, with the depth of
parentheses and the argument so far in reverse. -/
def arguments? : (depth : Nat) → (acc : List Item) → List Item → Option (List (List Item) × List Item)
  | _, _, [] => none
  | depth, acc, t :: ts =>
    if t.1 = .mark ")" then
      match depth with
      | 0 => some ([acc.reverse], ts)
      | depth + 1 => arguments? depth (t :: acc) ts
    else if t.1 = .mark "(" then arguments? (depth + 1) (t :: acc) ts
    else if t.1 = .mark "," && depth = 0 then
      (arguments? 0 [] ts).map fun (args, rest) => (acc.reverse :: args, rest)
    else arguments? depth (t :: acc) ts

/-- An argument: as it stands, and with its own abbreviations replaced. -/
structure Argument where
  plain : List Item := []
  full : List Item := []

namespace Argument

/-- Two arguments with a comma between them. -/
def join (a b : Argument) : Argument :=
  let comma : List Item := [(.mark ",", [])]
  ⟨a.plain ++ comma ++ b.plain, a.full ++ comma ++ b.full⟩

/-- Arguments as one, with commas between them. -/
def joined : List Argument → Argument
  | [] => {}
  | [a] => a
  | a :: args => a.join (joined args)

/-- The text of an argument as a literal. -/
def literal (a : Argument) : Token :=
  .literal .plain ((a.plain.flatMap fun t => t.1.text.toList).flatMap fun c =>
    if c = '"' || c = '\\' then ['\\', c] else [c])

/-- The argument as it stands, for a place where tokens are joined. -/
def part (a : Argument) : List Item := if a.plain.isEmpty then [(.mark "", [])] else a.plain

end Argument

/-- The arguments of parameters, of which the last one may take all that are left. -/
def bind (takesRest : Bool) : List String → List Argument → List (String × Argument)
  | [], _ => []
  | [id], args => [(id, if takesRest then .joined args else args.head?.getD {})]
  | id :: params, args => (id, args.head?.getD {}) :: bind takesRest params (args.drop 1)

/-! ## Replacement -/

/-- The tokens with arguments in place of parameters; `joins` says whether the mark that joins tokens
stands before them. -/
def substituted (args : List (String × Argument)) : (joins : Bool) → List Token → List Item
  | _, [] => []
  | _, .mark "#" :: .name id :: ts =>
    match args.lookup id with
    | some a => (a.literal, []) :: substituted args false ts
    | none => (.mark "#", []) :: (.name id, []) :: substituted args false ts
  | _, .mark "," :: .mark "##" :: .name id :: ts =>
    match args.lookup id with
    | some a =>
      (if a.plain.isEmpty then [] else (.mark ",", []) :: a.full) ++ substituted args false ts
    | none => (.mark ",", []) :: (.mark "##", []) :: (.name id, []) :: substituted args false ts
  | _, .mark "##" :: ts => (.mark "##", []) :: substituted args true ts
  | joins, .name id :: ts =>
    match args.lookup id with
    | some a =>
      (if joins || ts.head? = some (Token.mark "##") then a.part else a.full) ++
        substituted args false ts
    | none => (.name id, []) :: substituted args false ts
  | _, t :: ts => (t, []) :: substituted args false ts

/-- Two tokens as one. -/
def pair (t u : Item) : Item :=
  (((tokens (t.1.text ++ u.1.text).toList).head?).getD (.mark ""), t.2 ++ u.2)

/-- The tokens with those joined that have the mark for it between them. -/
def pasted : List Item → List Item
  | t :: (.mark "##", _) :: u :: ts => pasted (pair t u :: ts)
  | t :: ts => if t.1 = .mark "" then pasted ts else t :: pasted ts
  | [] => []
termination_by ts => ts.length

/-- The tokens of a body with arguments in place of parameters. -/
def instantiated (hidden : List String) (args : List (String × Argument)) (body : List Token) :
    List Item :=
  (pasted (substituted args false body)).map fun (t, own) => (t, hidden ++ own)

/-- The tokens of a line with all abbreviations replaced, after tokens in reverse. The number goes up
with each use of the counter. -/
def replacedFrom (table : List (String × Abbreviation)) (line : Nat) :
    (fuel : Nat) → Nat × List Item → List Item → Nat × List Item
  | 0, (n, acc), ts => (n, ts.reverse ++ acc)
  | _, acc, [] => acc
  | fuel + 1, (n, acc), (.name id, hidden) :: ts =>
    let keep := fun (_ : Unit) => replacedFrom table line fuel (n, (.name id, hidden) :: acc) ts
    if id = "__LINE__" then
      replacedFrom table line fuel (n, (.number (toString line), []) :: acc) ts
    else if id = "__COUNTER__" then
      replacedFrom table line fuel (n + 1, (.number (toString n), []) :: acc) ts
    else if id ∈ hidden then keep ()
    else match table.lookup id, ts with
      | some ⟨none, _, body⟩, ts =>
        replacedFrom table line fuel (n, acc) (instantiated (id :: hidden) [] body ++ ts)
      | some ⟨some params, takesRest, body⟩, (.mark "(", _) :: ts =>
        match arguments? 0 [] ts with
        | some (args, ts) =>
          let (n, args) := args.foldl (fun (n, done) plain =>
            let (n, full) := replacedFrom table line fuel (n, []) plain
            (n, done ++ [Argument.mk plain full.reverse])) (n, [])
          let body := instantiated (id :: hidden) (bind takesRest params args) body
          replacedFrom table line fuel (n, acc) (body ++ ts)
        | none => keep ()
      | _, _ => keep ()
  | fuel + 1, (n, acc), t :: ts => replacedFrom table line fuel (n, t :: acc) ts

/-- The most steps that replacing takes. -/
def replaceLimit : Nat := 0x100000

/-- The tokens of a line with all abbreviations replaced, and the counter after them. -/
def replaced (table : List (String × Abbreviation)) (line n : Nat) (ts : List Token) :
    Nat × List Token :=
  let (n, items) := replacedFrom table line replaceLimit (n, []) (without [] ts)
  (n, items.reverse.map (·.1))

/-! ## Conditions -/

/-- The number that says whether something is so. -/
def answer (b : Bool) : Token := .number (if b then "1" else "0")

/-- The tokens with a number in place of each question whether a name is defined. -/
def answered (table : List (String × Abbreviation)) : List Token → List Token
  | .name "defined" :: .mark "(" :: .name id :: .mark ")" :: ts =>
    answer (table.lookup id).isSome :: answered table ts
  | .name "defined" :: .name id :: ts => answer (table.lookup id).isSome :: answered table ts
  | t :: ts => t :: answered table ts
  | [] => []

/-- Whether a condition holds; names without a meaning stand for zero. -/
def holds (table : List (String × Abbreviation)) (line : Nat) (cs : List Char) : Bool :=
  let ts := (replaced table line 0 (answered table (tokens cs))).2.map fun
    | .name _ => answer false
    | t => t
  match (Parser.expression 4096).run ⟨{}, ts⟩ with
  | some (e, _) => (e.number? {}).any (· ≠ 0)
  | none => false

/-! ## Texts -/

/-- What has been read of a text. -/
structure State where
  table : List (String × Abbreviation) := []
  /-- How often the counter has been used. -/
  counter : Nat := 0
  /-- The number of the last line. -/
  line : Nat := 0
  /-- For each open condition, whether its lines count, and whether one of its parts has counted. -/
  conditions : List (Bool × Bool) := []
  /-- The tokens of lines that are not replaced yet, the last line first. -/
  waiting : List (List Token) := []
  /-- The number of parentheses that are open in them. -/
  depth : Nat := 0
  /-- Replaced tokens, the last ones first. -/
  done : List (List Token) := []

namespace State

/-- Whether lines count. -/
def isLive (s : State) : Bool := s.conditions.all (·.1)

/-- Replaces what is waiting. -/
def flush (s : State) : State :=
  let (counter, ts) := replaced s.table s.line s.counter s.waiting.reverse.flatten
  { s with counter, done := ts :: s.done, waiting := [], depth := 0 }

/-- The number of open parentheses after a token. -/
def depthAfter (depth : Nat) (t : Token) : Nat :=
  if t = .mark "(" then depth + 1 else if t = .mark ")" then depth - 1 else depth

/-- Whether a token may go on in the next line: its name stands for something before arguments. -/
def goesOn (s : State) : Token → Bool
  | .name id => (s.table.lookup id).any (·.params.isSome)
  | _ => false

/-- Reads tokens; they wait for the next line if they may go on there. -/
def take (s : State) (ts : List Token) : State :=
  let s := { s with waiting := ts :: s.waiting, depth := ts.foldl depthAfter s.depth }
  if s.depth = 0 && !ts.getLast?.any s.goesOn then s.flush else s

/-- The header that a line names. -/
def headerName : List Char → String
  | '<' :: cs => String.ofList (cs.takeWhile (· ≠ '>'))
  | '"' :: cs => String.ofList (cs.takeWhile (· ≠ '"'))
  | _ => ""

/-- Reads a line that is no code; `bring` reads a header. -/
def direct (bring : String → State → State) (s : State) (word : String) (rest : List Char) : State :=
  let name := String.ofList (rest.takeWhile isNameChar)
  let opened (b : Bool) : State := { s with conditions := (b, b) :: s.conditions }
  match word, s.conditions with
  | "if", _ => opened (s.isLive && holds s.table s.line rest)
  | "ifdef", _ => opened (s.table.lookup name).isSome
  | "ifndef", _ => opened (s.table.lookup name).isNone
  | "elif", (_, taken) :: outer =>
    let b := !taken && holds s.table s.line rest
    { s with conditions := (b, taken || b) :: outer }
  | "else", (_, taken) :: outer => { s with conditions := (!taken, true) :: outer }
  | "endif", _ :: outer => { s with conditions := outer }
  | word, _ =>
    if !s.isLive then s
    else match word with
      | "define" =>
        let (name, a) := ofDefinition rest
        { s.flush with table := Table.insert s.table name a }
      | "undef" => { s.flush with table := Table.erase s.table name }
      | "include" => bring (headerName rest) s.flush
      | "line" => { s.flush with line := (Text.number? 10 Text.decimalDigit? name.toList).getD (s.line + 1) - 1 }
      | _ => s

/-- Reads a line. -/
def read (bring : String → State → State) (s : State) (line : List Char) : State :=
  let s := { s with line := s.line + 1 }
  match Line.directive? line with
  | some (word, rest) => direct bring s word rest
  | none => if s.isLive then s.take (tokens line) else s

/-- Reads lines, with so many levels of headers. -/
def readAll : (levels : Nat) → State → List (List Char) → State
  | 0, s, _ => s
  | levels + 1, s, ls =>
    let bring (name : String) (s : State) : State :=
      { readAll levels s (((Header.lines? name).getD []).map (·.toList)) with line := s.line }
    ls.foldl (read bring) s

end State

/-- The tokens of a text with all abbreviations replaced, and the abbreviations after it. -/
def unfolded (s : State) (text : String) : List Token × State :=
  let t := (s.readAll 8 (Line.all text)).flush
  (t.done.reverse.flatten, { table := t.table, counter := t.counter })

end Abbreviation

end OpFusion.Source
