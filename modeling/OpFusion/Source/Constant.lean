/-
  Constant expressions: those with a value that is known without running anything.
-/
import OpFusion.Source.Tree
import OpFusion.Source.Value

namespace OpFusion.Source.Expr

/-- The value of a constant expression, with as many steps down as there is fuel. -/
def constant? (types : Types) : (fuel : Nat) → Expr → Option Value
  | 0, _ => none
  | fuel + 1, e =>
    let value? := constant? types fuel
    match e with
    | integer x => some (.integer x)
    | real x => some (.real x)
    | name id => (types.constants.lookup id).map fun n => .integer (.ofNumber n)
    | plus e => (value? e).bind (·.promoted?)
    | negate e => (value? e).bind (·.negated?)
    | complement e => (value? e).bind (·.complemented?)
    | isFalse e => ((value? e).bind (·.truth?)).map fun b => .ofBool !b
    | apply op l r => do Value.combine? types op (← value? l) (← value? r)
    | both l r => do
      if ← (← value? l).truth? then return .ofBool (← (← value? r).truth?)
      return .ofBool false
    | either l r => do
      if ← (← value? l).truth? then return .ofBool true
      return .ofBool (← (← value? r).truth?)
    | choose c l r => do if ← (← value? c).truth? then value? l else value? r
    | valueOr l r => do
      let v ← value? l
      if ← v.truth? then return v
      value? r
    | convert t e => (value? e).bind (·.convert? t)
    | sizeOfType t => (t.size? types).map .ofSize
    | sizeOf (text bytes) => some (.ofSize (bytes.length + 1))
    | sizeOf e => (value? e).bind fun v => (v.type.size? types).map .ofSize
    | alignmentOf t => some (.ofSize (t.alignment types))
    | address (member (target e) field) =>
      -- The address of a field, from the address of the record.
      (value? e).bind fun
        | .pointer t a => do
          let .record tag := t.bare | none
          (types.field? tag field).map fun f => .pointer f.type (a + f.offset)
        | _ => none
    | _ => none

/-- The number that a constant expression stands for. -/
def number? (types : Types) (e : Expr) : Option Int := (e.constant? types 256).bind (·.toInt?)

end OpFusion.Source.Expr
