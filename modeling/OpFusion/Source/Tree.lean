/-
  Expressions and commands of generated code, as trees.
-/
import OpFusion.Source.CType

namespace OpFusion.Source

mutual

/-- An expression. -/
inductive Expr where
  | integer (x : Integer)
  | real (x : Floating)
  /-- A literal, without the zero at its end. -/
  | text (bytes : List UInt8)
  | name (id : String)
  /-- A field of a record. -/
  | member (e : Expr) (field : String)
  /-- What an address points to. -/
  | target (e : Expr)
  /-- The address of what an expression stands for. -/
  | address (e : Expr)
  | call (f : Expr) (args : List Expr)
  /-- The value in the type of arithmetic. -/
  | plus (e : Expr)
  | negate (e : Expr)
  | complement (e : Expr)
  /-- Whether the value counts as false. -/
  | isFalse (e : Expr)
  | apply (op : Operator) (l r : Expr)
  /-- Whether both count as true; the right one is looked at only if the left one does. -/
  | both (l r : Expr)
  /-- Whether one counts as true; the right one is looked at only if the left one does not. -/
  | either (l r : Expr)
  /-- The second if the first counts as true, else the third. -/
  | choose (c l r : Expr)
  /-- The first if it counts as true, else the second. -/
  | valueOr (l r : Expr)
  | assign (l r : Expr)
  /-- Changes what the left side stands for by an operator; the value is the new one, or the old one. -/
  | update (op : Operator) (l r : Expr) (old : Bool)
  /-- One after the other; the value is that of the second. -/
  | sequence (l r : Expr)
  | convert (t : CType) (e : Expr)
  /-- A value in the type of another one, or in that of addresses of such values, and so on. -/
  | convertLike (model : Expr) (stars : Nat) (e : Expr)
  /-- The number of bytes of values of a type. -/
  | sizeOfType (t : CType)
  /-- The number of bytes of the values of an expression. -/
  | sizeOf (e : Expr)
  | alignmentOf (t : CType)
  /-- The number that divides the addresses of values of the type of an expression. -/
  | alignmentOfValue (e : Expr)
  /-- A new object of a type. -/
  | object (t : CType) (value : Initial)
  /-- The value for the type of an expression, or for all other types. -/
  | byType (e : Expr) (values : List (CType × Expr)) (other : List Expr)
  /-- Commands, the last of which gives the value. -/
  | block (body : List Command)

/-- What an object holds at first. -/
inductive Initial where
  | value (e : Expr)
  | list (items : List Initial)
  /-- For a field. -/
  | field (name : String) (item : Initial)
  /-- For a position. -/
  | position (index : Nat) (item : Initial)

/-- A command. -/
inductive Command where
  | nothing
  | expr (e : Expr)
  /-- A new variable; one with a number keeps its value, and is new only the first time. -/
  | declare (kept : Option Nat) (type : CType) (name : String) (value : Option Initial)
  /-- A new variable of the type of an expression, or of that of addresses of such values, and so on. -/
  | declareLike (model : Expr) (stars : Nat) (name : String) (value : Option Initial)
  /-- A new variable of so many elements. -/
  | declareMany (element : CType) (name : String) (length : Expr)
  /-- A function of its own, which sees the variables around it. -/
  | define (name : String) (result : CType) (params : List (String × CType)) (body : List Command)
  | block (body : List Command)
  | branch (c : Expr) (yes no : Command)
  /-- Runs while a condition holds, with an expression after each time. -/
  | loop (c : Expr) (next : Option Expr) (body : Command)
  /-- Runs at least once, and again while a condition holds. -/
  | repeatWhile (body : Command) (c : Expr)
  /-- Runs a body from the place of a value on. -/
  | select (e : Expr) (body : Command)
  /-- The place of the values from one to another, or of all other values. -/
  | place (range : Option (Expr × Expr))
  | label (name : String)
  | jump (label : String)
  | leaveLoop
  | nextTime
  | leave (value : Option Expr)

end

/-- A function. -/
structure Function where
  result : CType
  params : List (String × CType)
  body : List Command

end OpFusion.Source
