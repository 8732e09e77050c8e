/-
  Types of generated code, and how much room their values take.

  A record is known by its tag; its fields are found in a table of layouts.
-/
import OpFusion.Source.Floating

namespace OpFusion.Source

/-- A type. -/
inductive CType where
  | void
  /-- Zero or one. -/
  | bool
  | integer (t : IntType)
  | real (t : FloatType)
  | pointer (target : CType)
  /-- So many elements; a declaration may leave their number to what follows. -/
  | array (element : CType) (length : Option Nat)
  | record (tag : String)
  /-- A function, by its result. -/
  | function (result : CType)
  /-- A type whose values do not change: the target of an address or the element of an array. -/
  | constant (t : CType)
  /-- Some bits after so many others, which hold a number or only what is true or not. -/
  | bits (t : IntType) (shift : Nat) (isTruth : Bool)
  deriving DecidableEq

/-- A field of a record. -/
structure Field where
  name : String
  type : CType
  /-- The bytes before it. -/
  offset : Nat
  deriving DecidableEq

/-- The layout of a record. -/
structure Layout where
  size : Nat
  /-- The number that divides the address of a value. -/
  alignment : Nat
  fields : List Field
  /-- All fields lie at the start. -/
  overlaid : Bool := false
  deriving DecidableEq

/-- The names of types and of constants. -/
structure Types where
  names : List (String × CType) := []
  layouts : List (String × Layout) := []
  constants : List (String × Int) := []
  deriving DecidableEq

namespace CType

/-- The type of single characters. -/
def char : CType := integer .char

/-- The type of small constants. -/
def int : CType := integer .int

/-- The type of sizes. -/
def size : CType := integer .unsignedLong

/-- The type without the word that its values do not change. -/
def bare : CType → CType
  | constant t => t
  | t => t

/-- Whether values have elements. -/
def isArray (t : CType) : Bool :=
  match t.bare with
  | array .. => true
  | _ => false

/-- The number of bytes of a value. -/
def size? (types : Types) : CType → Option Nat
  | void | function _ => some 1
  | bool => some 1
  | integer t => some (t.bits / 8)
  | real t => some t.size
  | pointer _ => some 8
  | array element (some length) => (element.size? types).map (· * length)
  | array _ none => none
  | record tag => (types.layouts.lookup tag).map (·.size)
  | constant t => t.size? types
  | bits t shift _ => some ((shift + t.bits + 7) / 8)

/-- The number that divides the address of a value. -/
def alignment (types : Types) : CType → Nat
  | void | function _ | bool | bits .. => 1
  | integer t => t.bits / 8
  | real t => t.size
  | pointer _ => 8
  | array element _ => element.alignment types
  | record tag => ((types.layouts.lookup tag).map (·.alignment)).getD 1
  | constant t => t.alignment types

/-- The type of a value that is passed on: an array becomes the address of its first element. -/
def decayed : CType → CType
  | array element _ => pointer element
  | function result => pointer (function result)
  | constant t => t
  | bits t _ _ => integer t
  | t => t

/-- The type that two operands of arithmetic have in common. -/
def common? : CType → CType → Option CType
  | real s, real t => some (real (s.common t))
  | real s, integer _ | real s, bool | integer _, real s | bool, real s => some (real s)
  | integer s, integer t => some (integer (s.common t))
  | integer s, bool | bool, integer s => some (integer (s.common .int))
  | bool, bool => some int
  | _, _ => none

/-- The type of the choice between two values. -/
def choice? (s t : CType) : Option CType :=
  match s.common? t, s, t with
  | some u, _, _ => some u
  | none, pointer void, pointer u | none, pointer u, pointer void => some (pointer u)
  | none, pointer u, _ | none, _, pointer u => some (pointer u)
  | none, s, _ => some s

/-- The type in which a value takes part in arithmetic. -/
def promoted : CType → CType
  | bool => int
  | integer t => integer t.promote
  | t => t

end CType

/-- The next number that a divisor divides. -/
def alignedUp (n divisor : Nat) : Nat := (n + divisor - 1) / divisor * divisor

/-- What is declared in a record. -/
structure Member where
  name : String
  type : CType
  /-- The number of its bits, if it is only a part of a value. -/
  width : Option Nat := none
  /-- A number that divides its address. -/
  alignment : Nat := 1

namespace Layout

/-- How a record is laid out. -/
structure Rules where
  /-- All members lie at the start. -/
  overlaid : Bool := false
  /-- Members follow one another without gaps. -/
  packed : Bool := false
  /-- A number that divides the address of the record. -/
  alignment : Nat := 1

/-- The bits that hold a part of a value. -/
def partType (width shift : Nat) : CType → CType
  | .integer t => .bits { bits := width, unsigned := t.unsigned } shift false
  | .bool => .bits { bits := width, unsigned := true } shift true
  | t => t

/-- The number of bits so far, and the layout of the members so far, with one more member. -/
def place? (types : Types) (rules : Rules) (state : Nat × Layout) (m : Member) :
    Option (Nat × Layout) := do
  let (bits, l) := state
  let size ← match m.type with
    | .array _ none => some 0
    | type => type.size? types
  let own := if rules.packed then 1 else m.type.alignment types
  match m.width with
  | none =>
    let alignment := max own m.alignment
    let offset := if rules.overlaid then 0 else alignedUp ((bits + 7) / 8) alignment
    return (max bits (8 * (offset + size)),
      { l with
        alignment := max l.alignment alignment
        fields := l.fields ++ [⟨m.name, m.type, offset⟩] })
  | some 0 => return (if rules.overlaid then bits else alignedUp bits (8 * size), l)
  | some width =>
    let start :=
      if rules.overlaid then 0
      else if rules.packed || bits / (8 * size) = (bits + width - 1) / (8 * size) then bits
      else alignedUp bits (8 * size)
    let l := if m.name = "" then l else
      { l with
        alignment := max l.alignment own
        fields := l.fields ++ [⟨m.name, partType width (start % 8) m.type, start / 8⟩] }
    return (max bits (start + width), l)

/-- The layout of members. -/
def ofMembers? (types : Types) (rules : Rules) (members : List Member) : Option Layout := do
  let (bits, l) ← members.foldlM (place? types rules) (0, ⟨0, rules.alignment, [], rules.overlaid⟩)
  return { l with size := alignedUp ((bits + 7) / 8) l.alignment }

end Layout

/-- The field of a record, also within so many levels of fields without a name. -/
def Types.fieldWithin? (types : Types) : (levels : Nat) → (tag name : String) → Option Field
  | 0, _, _ => none
  | levels + 1, tag, name =>
    (types.layouts.lookup tag).bind fun l => l.fields.findSome? fun f =>
      if f.name = name then some f
      else match f with
        | ⟨"", .record inner, offset⟩ =>
          (types.fieldWithin? levels inner name).map fun g => { g with offset := offset + g.offset }
        | _ => none

/-- The number of values in a value of a type, with so many levels of parts. -/
def Types.valuesIn (types : Types) : (levels : Nat) → CType → Nat
  | 0, _ => 1
  | levels + 1, .array element length => (length.getD 0) * types.valuesIn levels element
  | levels + 1, .record tag =>
    match types.layouts.lookup tag with
    | some l =>
      ((if l.overlaid then l.fields.take 1 else l.fields).map fun f =>
        types.valuesIn levels f.type).foldr (· + ·) 0
    | none => 1
  | levels + 1, .constant t => types.valuesIn levels t
  | _, _ => 1

/-- The field of a record. -/
def Types.field? (types : Types) (tag name : String) : Option Field := types.fieldWithin? 8 tag name

end OpFusion.Source
