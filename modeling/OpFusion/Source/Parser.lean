/-
  Reading expressions, declarations and commands of generated code.

  What cannot be read as a command is passed over up to the next semicolon or brace.
-/
import OpFusion.Source.Reading

namespace OpFusion.Source.Parser

/-! ## Operators -/

/-- The level of an operator, higher ones first, and what it makes of its operands. -/
def operators : List (String × Nat × (Expr → Expr → Expr)) :=
  [("*", 10, .apply .mul), ("/", 10, .apply .div), ("%", 10, .apply .rem), ("+", 9, .apply .add),
    ("-", 9, .apply .sub), ("<<", 8, .apply .shiftLeft), (">>", 8, .apply .shiftRight),
    ("<", 7, .apply .less), (">", 7, .apply .greater), ("<=", 7, .apply .atMost),
    (">=", 7, .apply .atLeast), ("==", 6, .apply .equal), ("!=", 6, .apply .unequal),
    ("&", 5, .apply .bitAnd), ("^", 4, .apply .bitXor), ("|", 3, .apply .bitOr), ("&&", 2, .both),
    ("||", 1, .either)]

/-- What an operator that changes its left side makes of its operands. -/
def changes : List (String × (Expr → Expr → Expr)) :=
  [("=", .assign)] ++
    ([("+=", Operator.add), ("-=", .sub), ("*=", .mul), ("/=", .div), ("%=", .rem),
      ("<<=", .shiftLeft), (">>=", .shiftRight), ("&=", .bitAnd), ("^=", .bitXor),
      ("|=", .bitOr)].map fun (text, op) => (text, fun l r => Expr.update op l r false))

/-- The number one. -/
def one : Expr := .integer ⟨.int, 1⟩

/-- The type of the units of a literal. -/
def unitType : Encoding → CType
  | .plain | .utf8 => CType.char
  | .half => .integer .halfWord
  | .full => .integer .unsignedInt
  | .wide => CType.int

/-- A literal, of one or more texts side by side. -/
def literal (e : Encoding) (texts : List (List Char)) : Expr :=
  if e.isNarrow then .text (texts.flatMap literalBytes)
  else
    let units := texts.flatMap e.units ++ [0]
    .object (.array (unitType e) (some units.length))
      (.list (units.map fun (n : Nat) => .value (.integer (.ofInt .long n))))

/-- The type of a list of named constants, from the least and the greatest of them. -/
def enumType (least greatest : Int) : CType :=
  let fits (t : IntType) : Bool := t.holds least && t.holds greatest
  .integer (([IntType.unsignedInt, .int, .unsignedLong].find? fits).getD .long)

/-- The element at a position. -/
def element (e position : Expr) : Expr := .target (.apply .add e position)

mutual

/-- The members of a record up to its closing brace. -/
def members : (fuel : Nat) → Parser (List Member)
  | 0 => failure
  | fuel + 1 => do
    if ← mark "\x7d" then return []
    let s ← specifiers fuel {}
    let some t := s.type? (← get).types | failure
    let here ← do
      if ← mark ";" then pure [{ name := "", type := t.bare }]
      else memberNames fuel t s.attributes
    return here ++ (← members fuel)

/-- The names of members of one type up to a semicolon. -/
def memberNames : (fuel : Nat) → CType → Attributes → Parser (List Member)
  | 0, _, _ => failure
  | fuel + 1, t, a => do
    if ← mark ";" then return []
    let d ← do
      if ← sees (.mark ":") then pure {}
      else declarator fuel
    let width ← do
      if ← mark ":" then
        let e ← choice fuel
        let some n := e.number? (← get).types | failure
        pure (some n.toNat)
      else pure none
    let own := a.join (← attributes fuel)
    let type := (own.apply (← get).types (d.wrap t)).bare
    let _ ← mark ","
    return { name := d.name.getD "", type, width, alignment := own.alignment } ::
      (← memberNames fuel t a)

/-- Named constants up to a closing brace, from a number on; gives the least and the greatest of these
and two others. -/
def enumerators : (fuel : Nat) → (n least greatest : Int) → Parser (Int × Int)
  | 0, _, _, _ => failure
  | fuel + 1, n, least, greatest => do
    if ← mark "\x7d" then return (least, greatest)
    let id ← name
    let n ← do
      if ← mark "=" then
        let e ← choice fuel
        let some n := e.number? (← get).types | failure
        pure n
      else pure n
    nameConstant id n
    let _ ← mark ","
    enumerators fuel (n + 1) (min least n) (max greatest n)

/-- A record type, with its members or only with its tag. -/
def record : (fuel : Nat) → (overlaid : Bool) → Parser CType
  | 0, _ => failure
  | fuel + 1, overlaid => do
    let before ← attributes fuel
    let tag ← (some <$> name) <|> pure none
    if ← mark "\x7b" then
      let ms ← members fuel
      let a := before.join (← attributes fuel)
      let rules : Layout.Rules := { overlaid, packed := a.packed, alignment := a.alignment }
      let some l := Layout.ofMembers? (← get).types rules ms | failure
      let tag := tag.getD (← newTag)
      setLayout tag l
      return .record tag
    let some tag := tag | failure
    return .record tag

/-- The type of a list of named constants, which may be only named. -/
def enumeration : (fuel : Nat) → Parser CType
  | 0 => failure
  | fuel + 1 => do
    let _ ← attributes fuel
    let _ ← (some <$> name) <|> pure none
    if ← mark "\x7b" then
      let (least, greatest) ← enumerators fuel 0 0 0
      return enumType least greatest
    return .integer .unsignedInt

/-- What stands before declared names. -/
def specifiers : (fuel : Nat) → Specifiers → Parser Specifiers
  | 0, _ => failure
  | fuel + 1, s => do
    let s := { s with attributes := s.attributes.join (← attributes fuel) }
    let reading ← get
    let .name id := (reading.rest.head?).getD (.mark "") | return s
    let take (s : Specifiers) : Parser Specifiers := do
      let _ ← next
      specifiers fuel s
    if id = "static" then take { s with isStatic := true }
    else if id = "typedef" then take { s with isName := true }
    else if id ∈ constantWords then take { s with isConstant := true }
    else if id ∈ ignoredWords then take s
    else if id = "_Alignas" then
      let _ ← next
      let alignment ← aligned fuel
      specifiers fuel { s with attributes := s.attributes.join { alignment } }
    else if id = "_Atomic" then
      let _ ← next
      if startsTypeIn reading.types (reading.rest.drop 1) then
        expect "("
        let t ← typeName fuel
        expect ")"
        specifiers fuel { s with type := some t }
      else specifiers fuel s
    else if id ∈ typeWords then take { s with words := id :: s.words }
    else if s.hasType then return s
    else if id = "struct" || id = "union" then
      let _ ← next
      let t ← record fuel (id = "union")
      specifiers fuel { s with type := some t }
    else if id = "enum" then
      let _ ← next
      let t ← enumeration fuel
      specifiers fuel { s with type := some t }
    else if id ∈ typeofWords then
      let _ ← next
      expect "("
      let t ← typeName fuel
      expect ")"
      specifiers fuel { s with type := some t }
    else match reading.types.names.lookup id with
      | some t => take { s with type := some t }
      | none => return s

/-- The number in parentheses, or that of a type, which divides addresses. -/
def aligned : (fuel : Nat) → Parser Nat
  | 0 => failure
  | fuel + 1 => do
    let isType := startsTypeIn (← get).types (← get).rest
    expect "("
    let n ← do
      if isType then
        let t ← typeName fuel
        pure (t.alignment (← get).types)
      else
        let e ← choice fuel
        let some n := e.number? (← get).types | failure
        pure n.toNat
    expect ")"
    return n

/-- A declared name with what stands around it. -/
def declarator : (fuel : Nat) → Parser Declarator
  | 0 => failure
  | fuel + 1 => do
    let _ ← attributes fuel
    if ← mark "*" then
      let isConstant ← wordsOf (constantWords ++ ignoredWords ++ ["_Atomic"]) constantWords fuel
      let d ← declarator fuel
      let address (t : CType) : CType :=
        if isConstant then .constant (.pointer t) else .pointer t
      return { d with wrap := fun t => d.wrap (address t) }
    let s ← get
    match s.rest with
    | .name id :: ts =>
      set { s with rest := ts }
      if id ∈ ignoredWords || id ∈ constantWords then declarator fuel
      else
        let (wrap, params) ← suffixes fuel
        return ⟨some id, wrap, params⟩
    | .mark "(" :: .mark "*" :: _ | .mark "(" :: .mark "(" :: _ =>
      let _ ← next
      let d ← declarator fuel
      expect ")"
      let (wrap, params) ← suffixes fuel
      return { d with wrap := fun t => d.wrap (wrap t), params := d.params.or params }
    | .mark "(" :: .name id :: _ =>
      if startsType s.types id then
        let (wrap, params) ← suffixes fuel
        return ⟨none, wrap, params⟩
      else
        let _ ← next
        let d ← declarator fuel
        expect ")"
        let (wrap, params) ← suffixes fuel
        return { d with wrap := fun t => d.wrap (wrap t), params := d.params.or params }
    | _ =>
      let (wrap, params) ← suffixes fuel
      return ⟨none, wrap, params⟩

/-- Numbers of elements and parameters after a declared name. -/
def suffixes : (fuel : Nat) → Parser ((CType → CType) × Option (List (String × CType)))
  | 0 => failure
  | fuel + 1 => do
    if ← mark "[" then
      let _ ← wordsOf ("static" :: constantWords ++ ignoredWords) [] fuel
      let length ← do
        if ← mark "]" then pure none
        else
          let e ← choice fuel
          expect "]"
          let some n := e.number? (← get).types | failure
          pure (some n.toNat)
      let (wrap, _) ← suffixes fuel
      return (fun t => .array (wrap t) length, none)
    else if ← mark "(" then
      let ps ← parameters fuel
      let (wrap, _) ← suffixes fuel
      return (fun t => .function (wrap t).bare, some ps)
    else return (id, none)

/-- Parameters up to a closing parenthesis. -/
def parameters : (fuel : Nat) → Parser (List (String × CType))
  | 0 => failure
  | fuel + 1 => do
    if ← mark ")" then return []
    if ← mark "..." then
      expect ")"
      return []
    let s ← specifiers fuel {}
    let some t := s.type? (← get).types | failure
    let d ← declarator fuel
    let _ ← attributes fuel
    let _ ← mark ","
    let rest ← parameters fuel
    let t := (d.wrap t).decayed
    return if t = .void then rest else (d.name.getD "", t) :: rest

/-- The name of a type. -/
def typeName : (fuel : Nat) → Parser CType
  | 0 => failure
  | fuel + 1 => do
    let s ← specifiers fuel {}
    let some t := s.type? (← get).types | failure
    let d ← declarator fuel
    if d.name.isSome then failure
    return (d.wrap t).bare

/-- What an object holds at first. -/
def initial : (fuel : Nat) → Parser Initial
  | 0 => failure
  | fuel + 1 => do
    if ← mark "\x7b" then return .list (← initials fuel)
    return .value (← assignment fuel)

/-- What the parts of an object hold at first, up to a closing brace. -/
def initials : (fuel : Nat) → Parser (List Initial)
  | 0 => failure
  | fuel + 1 => do
    if ← mark "\x7d" then return []
    let items ← designated fuel
    let _ ← mark ","
    return items ++ (← initials fuel)

/-- What one or more parts of an object hold at first, after their names or positions, if there are
any. -/
def designated : (fuel : Nat) → Parser (List Initial)
  | 0 => failure
  | fuel + 1 => do
    if ← mark "." then
      let id ← name
      return [.field id (← designatedPart fuel)]
    else if ← mark "[" then
      let e ← choice fuel
      let some first := e.number? (← get).types | failure
      let last ← do
        if ← mark "..." then
          let e ← choice fuel
          let some last := e.number? (← get).types | failure
          pure last
        else pure first
      expect "]"
      let item ← designatedPart fuel
      return (List.range (last + 1 - first).toNat).map fun i => .position (first.toNat + i) item
    else return [← initial fuel]

/-- What a part holds at first, after its name or position: further names or positions, or a value. -/
def designatedPart : (fuel : Nat) → Parser Initial
  | 0 => failure
  | fuel + 1 => do
    if ← mark "=" then initial fuel
    else return .list (← designated fuel)

/-- Declared variables up to a semicolon. -/
def declared : (fuel : Nat) → Specifiers → CType → Parser (List Command)
  | 0, _, _ => failure
  | fuel + 1, s, t => do
    if ← mark ";" then return []
    if let some c ← (some <$> manyOf fuel t) <|> pure none then
      let _ ← mark ","
      return c :: (← declared fuel s t)
    let d ← declarator fuel
    let some id := d.name | failure
    let type := ((← attributes fuel).apply (← get).types (d.wrap t)).bare
    let value ← do
      if ← mark "=" then pure (some (← initial fuel))
      else pure none
    let _ ← mark ","
    match type with
    | .function _ => declared fuel s t
    | type =>
      if s.isName then
        nameType id type
        declared fuel s t
      else
        let left := (← get).rest.length
        let kept := if s.isStatic then some left else none
        return .declare kept type id value :: (← declared fuel s t)

/-- A variable of so many elements, where the number is not constant. -/
def manyOf : (fuel : Nat) → CType → Parser Command
  | 0, _ => failure
  | fuel + 1, t => do
    let t ← stars fuel t
    let id ← name
    expect "["
    let e ← expression fuel
    expect "]"
    if (e.number? (← get).types).isSome then failure
    unless (← sees (.mark ";")) || (← sees (.mark ",")) do failure
    return .declareMany t id e

/-- A declaration of variables, or a function of its own. -/
def declaration : (fuel : Nat) → Parser (List Command)
  | 0 => failure
  | fuel + 1 => do
    let s ← specifiers fuel {}
    let some t := s.type? (← get).types | failure
    (do return [← ownFunction fuel t]) <|> declared fuel s t

/-- A function among commands. -/
def ownFunction : (fuel : Nat) → CType → Parser Command
  | 0, _ => failure
  | fuel + 1, t => do
    let d ← declarator fuel
    let some id := d.name | failure
    let some params := d.params | failure
    let .function result := d.wrap t | failure
    expect "\x7b"
    let body ← commands fuel
    expect "\x7d"
    return .define id result params body

/-- An expression in parentheses. -/
def enclosed : (fuel : Nat) → Parser Expr
  | 0 => failure
  | fuel + 1 => do
    expect "("
    let e ← expression fuel
    expect ")"
    return e

/-- Variables of the type of an expression up to a semicolon. -/
def declaredLike : (fuel : Nat) → (model : Expr) → Parser (List Command)
  | 0, _ => failure
  | fuel + 1, model => do
    if ← mark ";" then return []
    let n ← countMarks "*" fuel
    let id ← name
    let value ← do
      if ← mark "=" then pure (some (← initial fuel))
      else pure none
    let _ ← mark ","
    return .declareLike model n id value :: (← declaredLike fuel model)

/-- Variables of the types of their first values up to a semicolon. -/
def declaredByValue : (fuel : Nat) → Parser (List Command)
  | 0 => failure
  | fuel + 1 => do
    if ← mark ";" then return []
    let id ← name
    expect "="
    let e ← assignment fuel
    let _ ← mark ","
    return .declareLike e 0 id (some (.value e)) :: (← declaredByValue fuel)

/-- Expressions between commas. -/
def expression : (fuel : Nat) → Parser Expr
  | 0 => failure
  | fuel + 1 => do
    let e ← assignment fuel
    if ← mark "," then return .sequence e (← expression fuel)
    return e

/-- An expression that may change something. -/
def assignment : (fuel : Nat) → Parser Expr
  | 0 => failure
  | fuel + 1 => do
    let l ← choice fuel
    match (← get).rest with
    | .mark text :: _ =>
      match changes.lookup text with
      | some make =>
        let _ ← next
        return make l (← assignment fuel)
      | none => return l
    | _ => return l

/-- An expression that may be a choice. -/
def choice : (fuel : Nat) → Parser Expr
  | 0 => failure
  | fuel + 1 => do
    let c ← operation fuel 1
    if ← mark "?" then
      if ← mark ":" then return .valueOr c (← choice fuel)
      let l ← expression fuel
      expect ":"
      return .choose c l (← choice fuel)
    return c

/-- An expression of operators of at least a level. -/
def operation : (fuel level : Nat) → Parser Expr
  | 0, _ => failure
  | fuel + 1, level => do operationFrom fuel level (← operand fuel)

/-- The expression that goes on from an operand. -/
def operationFrom : (fuel level : Nat) → Expr → Parser Expr
  | 0, _, _ => failure
  | fuel + 1, level, e => do
    match (← get).rest with
    | .mark text :: _ =>
      match operators.lookup text with
      | some (place, make) =>
        if level ≤ place then
          let _ ← next
          let r ← operation fuel (place + 1)
          operationFrom fuel level (make e r)
        else return e
      | none => return e
    | _ => return e

/-- An operand with the operators before it. -/
def operand : (fuel : Nat) → Parser Expr
  | 0 => failure
  | fuel + 1 => do
    let s ← get
    match s.rest with
    | .mark "-" :: ts => set { s with rest := ts }; return .negate (← operand fuel)
    | .mark "+" :: ts => set { s with rest := ts }; return .plus (← operand fuel)
    | .mark "~" :: ts => set { s with rest := ts }; return .complement (← operand fuel)
    | .mark "!" :: ts => set { s with rest := ts }; return .isFalse (← operand fuel)
    | .mark "*" :: ts => set { s with rest := ts }; return .target (← operand fuel)
    | .mark "&" :: ts => set { s with rest := ts }; return .address (← operand fuel)
    | .mark "++" :: ts => set { s with rest := ts }; return .update .add (← operand fuel) one false
    | .mark "--" :: ts => set { s with rest := ts }; return .update .sub (← operand fuel) one false
    | .name "__extension__" :: ts => set { s with rest := ts }; operand fuel
    | .name "sizeof" :: .mark "(" :: .name id :: ts =>
      set { s with rest := .mark "(" :: .name id :: ts }
      if startsType s.types id then sizeOfType fuel <|> sizeOfMany fuel
      else if id ∈ typeofWords then
        if startsTypeIn s.types ts then sizeOfType fuel
        else
          set { s with rest := ts }
          let e ← enclosed fuel
          let n ← countMarks "*" fuel
          expect ")"
          return if n = 0 then .sizeOf e else .sizeOfType (.pointer .void)
      else return .sizeOf (← operand fuel)
    | .name "sizeof" :: ts => set { s with rest := ts }; return .sizeOf (← operand fuel)
    | .name "_Alignof" :: ts | .name "__alignof__" :: ts | .name "__alignof" :: ts =>
      set { s with rest := ts }
      if startsTypeIn s.types ts then
        let _ ← next
        let t ← typeName fuel
        expect ")"
        return .alignmentOf t
      else return .alignmentOfValue (← operand fuel)
    | .mark "(" :: .name id :: ts =>
      if id ∈ typeofWords && !startsTypeIn s.types ts then
        set { s with rest := ts }
        let model ← enclosed fuel
        let n ← countMarks "*" fuel
        expect ")"
        return .convertLike model n (← operand fuel)
      else if startsType s.types id || id ∈ typeofWords then
        set { s with rest := .name id :: ts }
        let t ← typeName fuel
        expect ")"
        if ← sees (.mark "\x7b") then endings fuel (.object t (← initial fuel))
        else return .convert t (← operand fuel)
      else endings fuel (← start fuel)
    | _ => endings fuel (← start fuel)

/-- The size of a type in parentheses, or of an object of it. -/
def sizeOfType : (fuel : Nat) → Parser Expr
  | 0 => failure
  | fuel + 1 => do
    expect "("
    let t ← typeName fuel
    expect ")"
    if ← sees (.mark "\x7b") then
      return .sizeOf (← endings fuel (.object t (← initial fuel)))
    return .sizeOfType t

/-- The size of so many values of a type, in parentheses, where the number is not constant. -/
def sizeOfMany : (fuel : Nat) → Parser Expr
  | 0 => failure
  | fuel + 1 => do
    expect "("
    let s ← specifiers fuel {}
    let some t := s.type? (← get).types | failure
    let t ← stars fuel t
    let counts ← lengths fuel
    expect ")"
    return counts.foldl (fun e n => .apply .mul e (.convert CType.size n)) (.sizeOfType t)

/-- The type of addresses, of addresses of those, and so on. -/
def stars : (fuel : Nat) → CType → Parser CType
  | 0, _ => failure
  | fuel + 1, t => do if ← mark "*" then stars fuel (.pointer t) else return t

/-- Numbers of elements, each in brackets. -/
def lengths : (fuel : Nat) → Parser (List Expr)
  | 0 => failure
  | fuel + 1 => do
    if ← mark "[" then
      let e ← expression fuel
      expect "]"
      return e :: (← lengths fuel)
    return []

/-- The start of an operand: a constant, a name, or an expression in parentheses. -/
def start : (fuel : Nat) → Parser Expr
  | 0 => failure
  | fuel + 1 => do
    let s ← get
    match s.rest with
    | .number text :: ts =>
      set { s with rest := ts }
      match constant? text.toList, realConstant? text.toList with
      | some x, _ => return .integer x
      | none, some x => return .real x
      | none, none => failure
    | .character e text :: ts =>
      set { s with rest := ts }
      return .integer (characterConstant e text)
    | .literal .. :: _ =>
      let (e, texts, ts) := literals s.rest
      set { s with rest := ts }
      return literal e texts
    | .name "__builtin_choose_expr" :: .mark "(" :: ts =>
      set { s with rest := ts }
      let c ← assignment fuel
      expect ","
      let l ← assignment fuel
      expect ","
      let r ← assignment fuel
      expect ")"
      return if c.number? s.types = some 0 then r else l
    | .name "__builtin_types_compatible_p" :: .mark "(" :: ts =>
      set { s with rest := ts }
      let t ← typeName fuel
      expect ","
      let u ← typeName fuel
      expect ")"
      return .integer (.ofBool (t = u))
    | .name "__builtin_constant_p" :: .mark "(" :: ts =>
      set { s with rest := ts }
      let e ← assignment fuel
      expect ")"
      return .integer (.ofBool (e.number? s.types).isSome)
    | .name "_Generic" :: .mark "(" :: ts =>
      set { s with rest := ts }
      let e ← assignment fuel
      expect ","
      let (values, other) ← byTypes fuel
      return .byType e values other
    | .name "__FUNCTION__" :: ts | .name "__PRETTY_FUNCTION__" :: ts =>
      set { s with rest := ts }
      return .name "__func__"
    | .name id :: ts => set { s with rest := ts }; return .name id
    | .mark "(" :: .mark "\x7b" :: ts =>
      set { s with rest := ts }
      let body ← commands fuel
      expect "\x7d"
      expect ")"
      return .block body
    | .mark "(" :: ts =>
      set { s with rest := ts }
      let e ← expression fuel
      expect ")"
      return e
    | _ => failure

/-- Values for types up to a closing parenthesis, and the one for all others. -/
def byTypes : (fuel : Nat) → Parser (List (CType × Expr) × List Expr)
  | 0 => failure
  | fuel + 1 => do
    if ← mark ")" then return ([], [])
    if ← word "default" then
      expect ":"
      let e ← assignment fuel
      let _ ← mark ","
      let (values, _) ← byTypes fuel
      return (values, [e])
    let t ← typeName fuel
    expect ":"
    let e ← assignment fuel
    let _ ← mark ","
    let (values, other) ← byTypes fuel
    return ((t, e) :: values, other)

/-- What stands after the start of an operand. -/
def endings : (fuel : Nat) → Expr → Parser Expr
  | 0, _ => failure
  | fuel + 1, e => do
    let s ← get
    match s.rest with
    | .mark "[" :: ts =>
      set { s with rest := ts }
      let i ← expression fuel
      expect "]"
      endings fuel (element e i)
    | .mark "(" :: ts =>
      set { s with rest := ts }
      endings fuel (.call e (← arguments fuel))
    | .mark "." :: ts => set { s with rest := ts }; endings fuel (.member e (← name))
    | .mark "->" :: ts => set { s with rest := ts }; endings fuel (.member (.target e) (← name))
    | .mark "++" :: ts => set { s with rest := ts }; endings fuel (.update .add e one true)
    | .mark "--" :: ts => set { s with rest := ts }; endings fuel (.update .sub e one true)
    | _ => return e

/-- Arguments up to a closing parenthesis. -/
def arguments : (fuel : Nat) → Parser (List Expr)
  | 0 => failure
  | fuel + 1 => do
    if ← mark ")" then return []
    let e ← assignment fuel
    let _ ← mark ","
    return e :: (← arguments fuel)

/-- A command in parentheses and braces, as one. -/
def command : (fuel : Nat) → Parser Command
  | 0 => failure
  | fuel + 1 => do
    match ← commandList fuel with
    | [c] => return c
    | cs => return .block cs

/-- A command, which may declare several variables. -/
def commandList : (fuel : Nat) → Parser (List Command)
  | 0 => failure
  | fuel + 1 => do
    let s ← get
    let goOn (ts : List Token) : Parser Unit := set { s with rest := ts }
    match s.rest with
    | .mark ";" :: ts => goOn ts; return [.nothing]
    | .mark "\x7b" :: ts =>
      goOn ts
      let body ← commands fuel
      let _ ← mark "\x7d"
      return [.block body]
    | .name "if" :: .mark "(" :: ts =>
      goOn ts
      let c ← expression fuel
      expect ")"
      let yes ← command fuel
      if ← word "else" then return [.branch c yes (← command fuel)]
      return [.branch c yes .nothing]
    | .name "while" :: .mark "(" :: ts =>
      goOn ts
      let c ← expression fuel
      expect ")"
      return [.loop c none (← command fuel)]
    | .name "do" :: ts =>
      goOn ts
      let body ← command fuel
      unless ← word "while" do failure
      expect "("
      let c ← expression fuel
      expect ")"
      let _ ← mark ";"
      return [.repeatWhile body c]
    | .name "for" :: .mark "(" :: ts =>
      goOn ts
      let first ← commandList fuel
      let c ← (do expect ";"; pure one) <|> (do let e ← expression fuel; expect ";"; pure e)
      let step ← (do expect ")"; pure none) <|> (do let e ← expression fuel; expect ")"; pure (some e))
      return [.block (first ++ [.loop c step (← command fuel)])]
    | .name "switch" :: .mark "(" :: ts =>
      goOn ts
      let e ← expression fuel
      expect ")"
      return [.select e (← command fuel)]
    | .name "case" :: ts =>
      goOn ts
      let first ← choice fuel
      let last ← do
        if ← mark "..." then choice fuel
        else pure first
      expect ":"
      return [.place (some (first, last))]
    | .name "default" :: .mark ":" :: ts => goOn ts; return [.place none]
    | .name "return" :: .mark ";" :: ts => goOn ts; return [.leave none]
    | .name "return" :: ts =>
      goOn ts
      let e ← expression fuel
      expect ";"
      return [.leave (some e)]
    | .name "goto" :: .name id :: .mark ";" :: ts => goOn ts; return [.jump id]
    | .name "break" :: .mark ";" :: ts => goOn ts; return [.leaveLoop]
    | .name "continue" :: .mark ";" :: ts => goOn ts; return [.nextTime]
    | .name id :: .mark ":" :: ts => goOn ts; return [.label id]
    | .name "__auto_type" :: ts => goOn ts; declaredByValue fuel
    | .name "asm" :: _ | .name "__asm__" :: _ | .name "__asm" :: _ =>
      let _ ← skip
      return [.nothing]
    | .name id :: ts =>
      if id ∈ typeofWords && !startsTypeIn s.types ts then
        goOn ts
        declaredLike fuel (← enclosed fuel)
      else if startsType s.types id || id ∈ typeofWords then declaration fuel
      else
        let e ← expression fuel
        expect ";"
        return [.expr e]
    | _ =>
      let e ← expression fuel
      expect ";"
      return [.expr e]

/-- Commands up to a closing brace, which is left, or up to the end. -/
def commands : (fuel : Nat) → Parser (List Command)
  | 0 => return []
  | fuel + 1 => do
    match (← get).rest with
    | [] => return []
    | .mark "\x7d" :: _ => return []
    | _ =>
      let here ← commandList fuel <|> skip
      return here ++ (← commands fuel)

end

end OpFusion.Source.Parser
