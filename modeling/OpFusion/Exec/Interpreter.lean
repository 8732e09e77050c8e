/-
  Running free code.

  An expression has a value and may change memory; a command may also end a loop, jump to a label or
  leave the function. Everything counts its steps down, so that code that does not end breaks a rule.
-/
import OpFusion.Exec.Routine

namespace OpFusion

open Source (CType Value Expr Initial Command Function Operator)

/-- What follows a command. -/
inductive Outcome where
  | next
  | leaveLoop
  | nextTime
  | jump (label : String)
  | leave (value : Value)

/-- What a name stands for. -/
inductive Meaning where
  | object (v : Variable)
  | constant (n : Int)
  | function (index : Nat) (f : Function)

/-! ## First values -/

namespace First

/-- The most levels of parts that are looked at. -/
def levels : Nat := 16

/-- Whether a first value is one for a whole part of a type, of so many values. -/
def isWhole (element : CType) (values : Nat) : Initial → Bool
  | .value (.text _) => values ≤ 1 || element.isArray
  | .value _ => values ≤ 1
  | _ => true

/-- The number of elements that items fill, of so many values each, from a position and a number of
values in it on. -/
def length (element : CType) (values : Nat) : (index used : Nat) → List Initial → Nat
  | index, used, [] => if used = 0 then index else index + 1
  | index, used, item :: items =>
    match item with
    | .position i _ => max (length element values (i + 1) 0 items) (if used = 0 then index else index + 1)
    | item =>
      if isWhole element values item then length element values (index + 1) 0 items
      else if used + 1 < values then length element values index (used + 1) items
      else length element values (index + 1) 0 items

/-- The type with the number of elements that its first value gives it. -/
def completed (types : Source.Types) (t : CType) (value : Initial) : CType :=
  match t, value with
  | .array element none, .list [.value (.text bytes)]
  | .array element none, .value (.text bytes) =>
    if element.isArray then .array element (some 1)
    else .array element (some (bytes.length + 1))
  | .array element none, .value (.object (.array _ length) _) => .array element length
  | .array element none, .list items =>
    .array element (some (length element (types.valuesIn levels element) 0 0 items))
  | t, _ => t

/-- The type of a part of an object, and where it lies in it. -/
def part? (types : Source.Types) (t : CType) (index : Nat) : Option (CType × Nat) :=
  match t.bare with
  | .array element _ => (element.size? types).map fun size => (element, index * size)
  | .record tag => do
    let l ← types.layouts.lookup tag
    (l.fields[index]?).map fun f => (f.type, f.offset)
  | _ => none

/-- Whether an object has no part at a position. -/
def isFull (types : Source.Types) (t : CType) (index : Nat) : Bool :=
  match t.bare with
  | .array _ (some length) => length ≤ index
  | .record tag =>
    (types.layouts.lookup tag).all fun l => (if l.overlaid then 1 else l.fields.length) ≤ index
  | _ => false

end First

namespace Machine

/-- What a name stands for, if it is known. -/
def meaning? (m : Machine) (scope : Scope) (id : String) : Option Meaning :=
  let p := m.frame.program
  match scope.lookup id, p.types.constants.lookup id, p.functions.findIdx? (·.1 = id) with
  | some v, _, _ => some (.object v)
  | none, some n, _ => some (.constant n)
  | none, none, some index => (p.functions[index]?).map fun (_, f) => .function index f
  | none, none, none =>
    (m.frame.statics.findIdx? (·.1 = id)).map fun index =>
      .object ⟨(m.frame.static id).type, Region.address (.static index) 0⟩

/-- The type of addresses of addresses, and so on, of values of a type. -/
def starred : (stars : Nat) → CType → CType
  | 0, t => t
  | stars + 1, t => starred stars (.pointer t)

/-- The type of an expression. -/
def typeOf? (m : Machine) (scope : Scope) : (fuel : Nat) → Expr → Option CType
  | 0, _ => none
  | fuel + 1, e =>
    let type? := typeOf? m scope fuel
    let types := m.frame.program.types
    match e with
    | .integer x => some (.integer x.type)
    | .real x => some (.real x.type)
    | .text bytes => some (.array CType.char (some (bytes.length + 1)))
    | .name id =>
      match m.meaning? scope id with
      | some (.object v) => some v.type
      | some (.constant n) => some (.integer (Source.Integer.ofNumber n).type)
      | some (.function _ f) => some (.function f.result)
      | none =>
        if (Routine.address? id).isSome then some (.function (Routine.resultType id))
        else some (.integer .long)
    | .member e field => do
      let .record tag := (← type? e).bare | none
      (types.field? tag field).map (·.type)
    | .target e => do
      match (← type? e).decayed with
      | .pointer t => some t
      | _ => none
    | .address e => (type? e).map .pointer
    | .call (.name id) _ =>
      match m.meaning? scope id with
      | some (.function _ f) => some f.result
      | some (.object ⟨.pointer (.function t), _⟩) | some (.object ⟨.function t, _⟩) => some t
      | _ => some (Routine.resultType id)
    | .call f _ => do
      match (← type? f).decayed with
      | .pointer (.function t) => some t
      | _ => none
    | .plus e | .negate e | .complement e => (type? e).map (·.decayed.promoted)
    | .isFalse _ | .both .. | .either .. => some CType.int
    | .apply op l r => do
      let l := (← type? l).decayed
      let r := (← type? r).decayed
      match op with
      | .shiftLeft | .shiftRight => some l.promoted
      | .less | .greater | .atMost | .atLeast | .equal | .unequal => some CType.int
      | op =>
        match l, r with
        | .pointer _, .pointer _ => some (.integer .long)
        | .pointer t, _ | _, .pointer t => if op = .add || op = .sub then some (.pointer t) else none
        | l, r => l.common? r
    | .choose _ l r | .valueOr l r => do CType.choice? (← type? l).decayed (← type? r).decayed
    | .assign l _ | .update _ l _ _ => (type? l).map (·.decayed)
    | .sequence _ r => (type? r).map (·.decayed)
    | .convert t _ => some t
    | .convertLike model stars _ => (type? model).map fun t => starred stars t.bare
    | .sizeOfType _ | .sizeOf _ | .alignmentOf _ | .alignmentOfValue _ => some CType.size
    | .object t value => some (First.completed types t value)
    | .byType e values other => do
      let t := (← type? e).decayed
      match values.find? (·.1 = t), other with
      | some (_, e), _ => type? e
      | none, e :: _ => type? e
      | none, [] => none
    | .block body =>
      let scope := body.foldl (fun scope c =>
        match c with
        | .declare _ type name (some value) => (name, ⟨First.completed types type value, 0⟩) :: scope
        | .declare _ type name none => (name, ⟨type, 0⟩) :: scope
        | .declareLike model stars name _ =>
          match typeOf? m scope fuel model with
          | some t => (name, ⟨starred stars t.bare, 0⟩) :: scope
          | none => scope
        | _ => scope) scope
      match body.getLast? with
      | some (.expr e) => (typeOf? m scope fuel e).map (·.decayed)
      | _ => some .void

end Machine

namespace Run

/-- What a name stands for; a name that nothing defines is a function of the standard library or a
variable that keeps its value. -/
def meaning (scope : Scope) (id : String) : Run Meaning := do
  let m ← get
  match m.meaning? scope id, Routine.address? id with
  | some x, _ => return x
  | none, some a => return .object ⟨.function (Routine.resultType id), a⟩
  | none, none =>
    set { m with frame := m.frame.setStatic id .zero }
    return .object ⟨.integer .long, Region.address (.static m.frame.statics.length) 0⟩

/-- The address of a literal. It is kept with the variables that keep their values, under a name that no
variable has. -/
def literal (bytes : List UInt8) : Run Nat := do
  let m ← get
  let id := String.ofList ('"' :: bytes.map fun b => Char.ofNat b.toNat)
  match m.frame.statics.findIdx? (·.1 = id) with
  | some index => return Region.address (.static index) 0
  | none =>
    let s : Static := ⟨.array CType.char (some (bytes.length + 1)), bytes ++ [0]⟩
    set { m with frame := m.frame.setStatic id s }
    return Region.address (.static m.frame.statics.length) 0

/-- The most steps down that typing takes. -/
def typeDepth : Nat := 4096

/-- The type of an expression. -/
def typeOf (scope : Scope) (e : Expr) : Run CType := do (← get).typeOf? scope typeDepth e

/-- The field of a record. -/
def field (tag name : String) : Run Source.Field := do (← types).field? tag name

/-- The variable that holds the name of a function, inside it. -/
def ownName (id : String) : Run (String × Variable) := do
  let bytes := Utf8.encode id.toList
  return ("__func__", ⟨.array CType.char (some (bytes.length + 1)), ← literal bytes⟩)

/-- Whether a command is the place of a value. -/
def isPlace (types : Source.Types) (n : Int) : Command → Bool
  | .place (some (first, last)) =>
    (first.number? types).any (· ≤ n) && (last.number? types).any (n ≤ ·)
  | _ => false

/-- Whether a command is a label. -/
def isLabel (label : String) : Command → Bool
  | .label name => name = label
  | _ => false

mutual

/-- Where what an expression stands for lies, and its type. -/
def place : (fuel : Nat) → Scope → Expr → Run (CType × Nat)
  | 0, _, _ => failure
  | fuel + 1, scope, e => do
    match e with
    | .name id =>
      match ← meaning scope id with
      | .object v => return (v.type, v.address)
      | .function index f => return (.function f.result, Region.address (.function index) 0)
      | .constant _ => failure
    | .target e =>
      match ← eval fuel scope e with
      | .pointer t a => return (t, a)
      | _ => failure
    | .member e name =>
      let (t, a) ← place fuel scope e
      let .record tag := t.bare | failure
      let f ← field tag name
      return (f.type, Value.address (a + f.offset))
    | .text bytes =>
      return (.array CType.char (some (bytes.length + 1)), ← literal bytes)
    | .object t value =>
      let t := First.completed (← types) t value
      let a ← allocate (List.replicate (← sizeOf t) 0)
      fill fuel scope t a value
      return (t, a)
    | .sequence l r =>
      let _ ← eval fuel scope l
      place fuel scope r
    | _ => failure

/-- The value of an expression. -/
def eval : (fuel : Nat) → Scope → Expr → Run Value
  | 0, _, _ => failure
  | fuel + 1, scope, e => do
    match e with
    | .integer x => return .integer x
    | .real x => return .real x
    | .name id =>
      match ← meaning scope id with
      | .object v => load v.type v.address
      | .constant n => return .integer (.ofNumber n)
      | .function index f =>
        return .pointer (.function f.result) (Region.address (.function index) 0)
    | .text _ | .target _ | .object .. =>
      let (t, a) ← place fuel scope e
      load t a
    | .member e name =>
      (do let (t, a) ← place fuel scope (.member e name)
          load t a) <|>
      (do let .record tag bytes ← eval fuel scope e | failure
          let f ← field tag name
          Value.ofBytes? (Buffer.readBytes bytes f.offset (← sizeOf f.type)) f.type)
    | .address e =>
      let (t, a) ← place fuel scope e
      return .pointer t a
    | .call f args => call fuel scope f (← evalAll fuel scope args)
    | .plus e => (← eval fuel scope e).promoted?
    | .negate e => (← eval fuel scope e).negated?
    | .complement e => (← eval fuel scope e).complemented?
    | .isFalse e => return .ofBool !(← (← eval fuel scope e).truth?)
    | .apply op l r =>
      let x ← eval fuel scope l
      let y ← eval fuel scope r
      Value.combine? (← types) op x y
    | .both l r =>
      if ← (← eval fuel scope l).truth? then return .ofBool (← (← eval fuel scope r).truth?)
      return .ofBool false
    | .either l r =>
      if ← (← eval fuel scope l).truth? then return .ofBool true
      return .ofBool (← (← eval fuel scope r).truth?)
    | .choose c l r =>
      let t ← CType.choice? (← typeOf scope l).decayed (← typeOf scope r).decayed
      let b ← (← eval fuel scope c).truth?
      (← eval fuel scope (if b then l else r)).convert? t
    | .valueOr l r =>
      let t ← CType.choice? (← typeOf scope l).decayed (← typeOf scope r).decayed
      let v ← eval fuel scope l
      if ← v.truth? then v.convert? t
      else (← eval fuel scope r).convert? t
    | .assign l r =>
      let (t, a) ← place fuel scope l
      store t a (← eval fuel scope r)
    | .update op l r old =>
      let y ← eval fuel scope r
      let (t, a) ← place fuel scope l
      let x ← load t a
      let new ← store t a (← Value.combine? (← types) op x y)
      return if old then x else new
    | .sequence l r =>
      let _ ← eval fuel scope l
      eval fuel scope r
    | .convert t e => (← eval fuel scope e).convert? t
    | .convertLike model stars e =>
      let t := Machine.starred stars (← typeOf scope model).bare
      (← eval fuel scope e).convert? t
    | .sizeOfType t => return .ofSize (← sizeOf t)
    | .sizeOf e => return .ofSize (← sizeOf (← typeOf scope e))
    | .alignmentOf t => return .ofSize (t.alignment (← types))
    | .alignmentOfValue e => return .ofSize ((← typeOf scope e).alignment (← types))
    | .byType e values other =>
      let t := (← typeOf scope e).decayed
      match values.find? (·.1 = t), other with
      | some (_, e), _ => eval fuel scope e
      | none, e :: _ => eval fuel scope e
      | none, [] => failure
    | .block body => blockValue fuel scope body body

/-- The values of arguments, the last one first. -/
def evalAll : (fuel : Nat) → Scope → List Expr → Run (List Value)
  | 0, _, _ => failure
  | _, _, [] => return []
  | fuel + 1, scope, e :: es => do
    let values ← evalAll fuel scope es
    return (← eval fuel scope e) :: values

/-- The value of those commands of a list that are left: that of the last expression. -/
def blockValue : (fuel : Nat) → Scope → (all left : List Command) → Run Value
  | 0, _, _, _ => failure
  | _, _, _, [] => return .nothing
  | fuel + 1, scope, _, [.expr e] => eval fuel scope e
  | fuel + 1, scope, all, c :: left => do
    match ← perform fuel scope c with
    | (.next, scope) => blockValue fuel scope all left
    | (.jump label, scope) =>
      match all.dropWhile (!isLabel label ·) with
      | [] => failure
      | left => blockValue fuel scope all left
    | _ => failure

/-- Calls a function with values. -/
def call : (fuel : Nat) → Scope → Expr → List Value → Run Value
  | 0, _, _, _ => failure
  | fuel + 1, scope, f, args => do
    match f with
    | .name id =>
      match (← get).meaning? scope id with
      | some (.function _ f) => enter fuel [] id f args
      | some _ => callAt fuel (← eval fuel scope f) args
      | none => Routine.call id args
    | f => callAt fuel (← eval fuel scope f) args

/-- Calls the function at an address. -/
def callAt : (fuel : Nat) → Value → List Value → Run Value
  | 0, _, _ => failure
  | fuel + 1, f, args => do
    let .pointer _ a := f | failure
    match Region.ofAddress? a with
    | some (.service index, 0) => Routine.callAt index args
    | some (.function index, 0) =>
      let (id, f) ← (← get).frame.program.functions[index]?
      enter fuel [] id f args
    | some (.closure index, 0) =>
      let c ← (← get).closures[index]?
      enter fuel c.scope c.name c.function args
    | _ => failure

/-- Runs a function with variables around it. -/
def enter : (fuel : Nat) → Scope → String → Function → List Value → Run Value
  | 0, _, _, _, _ => failure
  | fuel + 1, outer, id, f, args => do
    let home := (← get).home
    let scope ← parameters fuel f.params args
    modify fun m => { m with home := id }
    let own ← ownName id
    let outcome ← runAll fuel (own :: (scope ++ outer)) f.body f.body
    modify fun m => { m with home }
    match outcome with
    | .leave .nothing | .next => return .nothing
    | .leave v => v.convert? f.result
    | _ => failure

/-- The variables of parameters. -/
def parameters : (fuel : Nat) → List (String × CType) → List Value → Run Scope
  | 0, _, _ => failure
  | fuel + 1, (name, t) :: params, v :: args => do
    let a ← allocate (List.replicate (← sizeOf t) 0)
    let _ ← store t a v
    return (name, ⟨t, a⟩) :: (← parameters fuel params args)
  | _, _, _ => return []

/-- Puts a first value into an object. -/
def fill : (fuel : Nat) → Scope → CType → Nat → Initial → Run Unit
  | 0, _, _, _, _ => failure
  | fuel + 1, scope, t, a, value => do
    match t.bare, value with
    | .array _ _, .value (.text bytes) => write a ((bytes ++ [0]).take (← sizeOf t))
    | .array element _, .list [.value (.text bytes)] =>
      if element.isArray then
        let _ ← fillParts fuel scope t a true 0 [.value (.text bytes)]
      else write a ((bytes ++ [0]).take (← sizeOf t))
    | .array _ _, .value (.object (.array _ _) value) => fill fuel scope t a value
    | .array _ _, .list items | .record _, .list items =>
      let _ ← fillParts fuel scope t a true 0 items
    | t, .value e =>
      let _ ← store t a (← eval fuel scope e)
    | t, .list (item :: _) => fill fuel scope t a item
    | _, .list [] => return
    | t, .field _ item | t, .position _ item => fill fuel scope t a item

/-- Puts first values into the parts of an object, from a part on; gives the items that are left. Without
braces of its own an object takes no items for named parts. -/
def fillParts : (fuel : Nat) → Scope → CType → Nat → (braced : Bool) → (index : Nat) → List Initial →
    Run (List Initial)
  | 0, _, _, _, _, _, _ => failure
  | _, _, _, _, _, _, [] => return []
  | fuel + 1, scope, t, a, braced, index, item :: items => do
    match item with
    | .field name value =>
      if !braced then return item :: items
      let .record tag := t.bare | failure
      let l ← (← types).layouts.lookup tag
      match l.fields.findIdx? (·.name = name) with
      | some index =>
        let items ← fillPart fuel scope t a index value items
        fillParts fuel scope t a braced (index + 1) items
      | none =>
        let f ← field tag name
        fill fuel scope f.type (a + f.offset) value
        fillParts fuel scope t a braced index items
    | .position index value =>
      if !braced then return item :: items
      let items ← fillPart fuel scope t a index value items
      fillParts fuel scope t a braced (index + 1) items
    | item =>
      if First.isFull (← types) t index then return item :: items
      let items ← fillPart fuel scope t a index item items
      fillParts fuel scope t a braced (index + 1) items

/-- Puts a first value, and if it has no braces those after it, into one part of an object; gives the
items that are left. -/
def fillPart : (fuel : Nat) → Scope → CType → Nat → (index : Nat) → Initial → List Initial →
    Run (List Initial)
  | 0, _, _, _, _, _, _ => failure
  | fuel + 1, scope, t, a, index, item, items => do
    let (part, offset) ← First.part? (← types) t index
    let whole ← do
      match part.bare, item with
      | .array .., .value (.text _) | .array .., .value (.object (.array ..) _) => pure true
      | .record tag, .value e => pure ((← typeOf scope e).bare = .record tag)
      | .array .., .value _ => pure false
      | _, _ => pure true
    if whole then
      fill fuel scope part (a + offset) item
      return items
    else fillParts fuel scope part (a + offset) false 0 (item :: items)

/-- Declares a variable; one with a number keeps its value. -/
def declare : (fuel : Nat) → Scope → (kept : Option Nat) → CType → String → Option Initial → Run Scope
  | 0, _, _, _, _, _ => failure
  | fuel + 1, scope, kept, t, name, value => do
    let types ← types
    let t := value.elim t (First.completed types t)
    let bytes := List.replicate (← sizeOf t) 0
    match kept with
    | some number =>
      let m ← get
      let id := m.home ++ "." ++ name ++ "." ++ toString number
      match m.frame.statics.findIdx? (·.1 = id) with
      | some index => return (name, ⟨t, Region.address (.static index) 0⟩) :: scope
      | none =>
        set { m with frame := m.frame.setStatic id ⟨t, bytes⟩ }
        let a := Region.address (.static m.frame.statics.length) 0
        let scope := (name, ⟨t, a⟩) :: scope
        fillSome fuel scope t a value
        return scope
    | none =>
      let a ← allocate bytes
      let scope := (name, ⟨t, a⟩) :: scope
      fillSome fuel scope t a value
      return scope

/-- Puts a first value into an object, if there is one. -/
def fillSome : (fuel : Nat) → Scope → CType → Nat → Option Initial → Run Unit
  | 0, _, _, _, _ => failure
  | fuel + 1, scope, t, a, some value => fill fuel scope t a value
  | _, _, _, _, none => return

/-- Runs a command; gives what follows, and the variables after it. -/
def perform : (fuel : Nat) → Scope → Command → Run (Outcome × Scope)
  | 0, _, _ => failure
  | fuel + 1, scope, c => do
    match c with
    | .nothing | .label _ | .place _ => return (.next, scope)
    | .expr e =>
      let _ ← eval fuel scope e
      return (.next, scope)
    | .declare kept t name value => return (.next, ← declare fuel scope kept t name value)
    | .declareLike model stars name value =>
      let t := Machine.starred stars (← typeOf scope model).bare
      return (.next, ← declare fuel scope none t name value)
    | .declareMany element name length =>
      let n ← (← eval fuel scope length).toInt?
      return (.next, ← declare fuel scope none (.array element (some n.toNat)) name none)
    | .define name result params body =>
      let m ← get
      let v := Variable.mk (.function result) (Region.address (.closure m.closures.size) 0)
      let scope := (name, v) :: scope
      set { m with closures := m.closures.push ⟨name, ⟨result, params, body⟩, scope⟩ }
      return (.next, scope)
    | .block body => return (← runAll fuel scope body body, scope)
    | .branch c yes no =>
      let b ← (← eval fuel scope c).truth?
      let (outcome, _) ← perform fuel scope (if b then yes else no)
      return (outcome, scope)
    | .loop c next body => return (← loop fuel scope c next body, scope)
    | .repeatWhile body c =>
      let (outcome, _) ← perform fuel scope body
      match outcome with
      | .next | .nextTime => return (← loop fuel scope c none body, scope)
      | .leaveLoop => return (.next, scope)
      | outcome => return (outcome, scope)
    | .select e body =>
      let n ← (← eval fuel scope e).toInt?
      let commands := match body with
        | .block cs => cs
        | c => [c]
      let types ← types
      let start := match commands.dropWhile (!isPlace types n ·) with
        | [] => commands.dropWhile fun
          | .place none => false
          | _ => true
        | cs => cs
      match ← runAll fuel scope commands start with
      | .leaveLoop => return (.next, scope)
      | outcome => return (outcome, scope)
    | .jump label => return (.jump label, scope)
    | .leaveLoop => return (.leaveLoop, scope)
    | .nextTime => return (.nextTime, scope)
    | .leave (some e) => return (.leave (← eval fuel scope e), scope)
    | .leave none => return (.leave .nothing, scope)

/-- Runs a loop. -/
def loop : (fuel : Nat) → Scope → Expr → Option Expr → Command → Run Outcome
  | 0, _, _, _, _ => failure
  | fuel + 1, scope, c, next, body => do
    if ← (← eval fuel scope c).truth? then
      let (outcome, _) ← perform fuel scope body
      match outcome with
      | .next | .nextTime =>
        if let some e := next then
          let _ ← eval fuel scope e
        loop fuel scope c next body
      | .leaveLoop => return .next
      | outcome => return outcome
    else return .next

/-- Runs those commands of a list that are left; a jump goes on at its label, if the list has it. -/
def runAll : (fuel : Nat) → Scope → (all left : List Command) → Run Outcome
  | 0, _, _, _ => failure
  | _, _, _, [] => return .next
  | fuel + 1, scope, all, c :: left => do
    match ← perform fuel scope c with
    | (.next, scope) => runAll fuel scope all left
    | (.jump label, scope) =>
      match all.dropWhile (!isLabel label ·) with
      | [] => return .jump label
      | left => runAll fuel scope all left
    | (outcome, _) => return outcome

end

end Run

end OpFusion
