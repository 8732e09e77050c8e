/-
  The functions that free code may call without defining them: the services of a call, and functions of
  the standard library.
-/
import OpFusion.Exec.Machine

namespace OpFusion

open Source (CType IntType FloatType Floating Integer Value)

namespace Run

/-- The whole number of an argument. -/
def number (v : Value) : Run Int := v.toInt?

/-- The address or the count that an argument is. -/
def count (v : Value) : Run Nat := do return Value.address (← number v)

/-! ## Services -/

/-- Goes on with what a step leaves. -/
def follow : Flow → Run Unit
  | .next frame => modify fun m => { m with frame }
  | _ => failure

/-- Words of 64 bits with a sign. -/
def words : (count : Nat) → List UInt8 → List Int64
  | 0, _ => []
  | count + 1, bytes => Int64.ofNat (ofLeBytes (bytes.take 8)) :: words count (bytes.drop 8)

/-- Allocates a buffer. -/
def allocateBuffer (tag rank dims : Nat) : Run Value := do
  let extents ← do
    if rank = 0 || dims = 0 then pure none
    else pure (some (words rank (← read dims (8 * rank))))
  let (address, frame) := (← get).frame.allocate tag rank extents
  modify fun m => { m with frame }
  return .pointer .void ((address.map fun k => Region.address (.header k) 0).getD 0)

/-- Releases a buffer, if there is one. -/
def releaseBuffer (a : Nat) : Run Value := do
  if a ≠ 0 then
    let some (.header k, 0) := Region.ofAddress? a | failure
    follow ((← get).frame.release k)
  return .nothing

/-- Reports a failure. -/
def report (a : Nat) : Run Value := do
  let m ← get
  let message ← do
    if a = 0 then pure Frame.unspecified
    else pure (Frame.byteText (← m.text? a))
  set { m with frame := m.frame.record message }
  return .nothing

/-- Calls a service. -/
def service (index : Nat) (args : List Value) : Run Value := do
  match index, args with
  | 0, [_, tag, rank, dims] =>
    allocateBuffer ((← count tag) % 0x100000000) ((← count rank) % 0x100000000) (← count dims)
  | 1, [_, buffer] => releaseBuffer (← count buffer)
  | 2, [_, message] => report (← count message)
  | _, _ => failure

end Run

namespace Routine

/-! ## Memory and texts -/

/-- The sign of the first difference between two texts of bytes. -/
def compared : List UInt8 → List UInt8 → Int
  | x :: xs, y :: ys => if x = y then compared xs ys else if x < y then -1 else 1
  | [], [] => 0
  | [], _ :: _ => -1
  | _ :: _, [] => 1

/-- An integer of a type. -/
def ofInt (t : IntType) (n : Int) : Value := .integer (.ofInt t n)

/-- An address of bytes. -/
def bytesAt (a : Nat) : Value := .pointer CType.char a

/-- The address of the first byte that is sought, if there is one. -/
def found (a : Nat) (bytes : List UInt8) (b : UInt8) : Value :=
  bytesAt ((bytes.idxOf? b).elim 0 (a + ·))

/-- Calls a function on memory and texts. -/
def onMemory (id : String) (args : List Value) : Run Value := do
  let text (a : Nat) : Run (List UInt8) := do (← get).text? a
  match id, args with
  | "memcpy", [target, source, n] | "memmove", [target, source, n] =>
    Run.write (← Run.count target) (← Run.read (← Run.count source) (← Run.count n))
    target.convert? (.pointer .void)
  | "mempcpy", [target, source, n] =>
    Run.write (← Run.count target) (← Run.read (← Run.count source) (← Run.count n))
    return .pointer .void ((← Run.count target) + (← Run.count n))
  | "memset", [target, b, n] =>
    let old ← Run.read (← Run.count target) (← Run.count n)
    let b := UInt8.ofNat (← Run.count b)
    Run.write (← Run.count target) (old.map fun _ => b)
    target.convert? (.pointer .void)
  | "memcmp", [x, y, n] =>
    let n ← Run.count n
    return ofInt .int (compared (← Run.read (← Run.count x) n) (← Run.read (← Run.count y) n))
  | "memchr", [x, b, n] =>
    let a ← Run.count x
    return found a (← Run.read a (← Run.count n)) (UInt8.ofNat (← Run.count b))
  | "strlen", [x] => return .ofSize (← text (← Run.count x)).length
  | "strnlen", [x, n] => return .ofSize (min (← Run.count n) (← text (← Run.count x)).length)
  | "strcmp", [x, y] =>
    return ofInt .int (compared (← text (← Run.count x)) (← text (← Run.count y)))
  | "strncmp", [x, y, n] =>
    let n ← Run.count n
    return ofInt .int
      (compared ((← text (← Run.count x)).take n) ((← text (← Run.count y)).take n))
  | "strchr", [x, b] =>
    let a ← Run.count x
    return found a ((← text a) ++ [0]) (UInt8.ofNat (← Run.count b))
  | "strrchr", [x, b] =>
    let a ← Run.count x
    let bytes := (← text a) ++ [0]
    return bytesAt ((bytes.reverse.idxOf? (UInt8.ofNat (← Run.count b))).elim 0
      fun i => a + (bytes.length - 1 - i))
  | "strspn", [x, y] =>
    let set ← text (← Run.count y)
    return .ofSize ((← text (← Run.count x)).takeWhile (set.contains ·)).length
  | "strcspn", [x, y] =>
    let set ← text (← Run.count y)
    return .ofSize ((← text (← Run.count x)).takeWhile (!set.contains ·)).length
  | "strcpy", [target, source] =>
    Run.write (← Run.count target) ((← text (← Run.count source)) ++ [0])
    return target
  | "strcat", [target, source] =>
    let a ← Run.count target
    Run.write (a + (← text a).length) ((← text (← Run.count source)) ++ [0])
    return target
  | "malloc", [n] | "alloca", [n] =>
    return .pointer .void (← Run.allocate (List.replicate (← Run.count n) 0))
  | "calloc", [n, size] =>
    return .pointer .void (← Run.allocate (List.replicate ((← Run.count n) * (← Run.count size)) 0))
  | "free", [_] => return .nothing
  | _, _ => failure

/-! ## Places -/

/-- The operators by which functions change a place, by their names. -/
def changes : List (String × Source.Operator) :=
  [("add", .add), ("sub", .sub), ("mul", .mul), ("and", .bitAnd), ("or", .bitOr), ("xor", .bitXor)]

/-- Changes a place by an operator; gives the old value and the new one. -/
def change (op : Source.Operator) (p v : Value) : Run (Value × Value) := do
  let .pointer t a := p | failure
  let old ← Run.load t a
  let new ← Run.store t a (← Value.combine? (← Run.types) op old v)
  return (old, new)

/-- The exact result of an operator on whole numbers. -/
def exact : Source.Operator → Int → Int → Int
  | .add, x, y => x + y
  | .sub, x, y => x - y
  | _, x, y => x * y

/-- Calls a function on the value at an address. -/
def onPlaces (id : String) (args : List Value) : Run Value := do
  match id, args with
  | "__atomic_load_n", .pointer t a :: _ => Run.load t a
  | "__atomic_store_n", .pointer t a :: v :: _ =>
    let _ ← Run.store t a v
    return .nothing
  | "__atomic_exchange_n", .pointer t a :: v :: _ =>
    let old ← Run.load t a
    let _ ← Run.store t a v
    return old
  | id, [x, y, .pointer t a] =>
    let some (_, op) := changes.find? fun (name, _) => id = name ++ "_overflow" | failure
    let n := exact op (← Run.number x) (← Run.number y)
    let w ← Run.store t a (.integer ⟨.long, n⟩)
    return .ofBool ((← Run.number w) ≠ n)
  | id, p :: v :: _ =>
    let named (before after : String) : Option Source.Operator :=
      (changes.find? fun (name, _) => id = before ++ name ++ after).map (·.2)
    match (named "__atomic_fetch_" "").or (named "__sync_fetch_and_" ""),
      (named "__atomic_" "_fetch").or (named "__sync_" "_and_fetch") with
    | some op, _ => return (← change op p v).1
    | none, some op => return (← change op p v).2
    | none, none => failure
  | _, _ => failure

/-! ## Numbers -/

/-- The size of one number with the sign of another. -/
def withSign (x y : Float) : Float :=
  let sign : UInt64 := 0x8000000000000000
  Float.ofBits ((x.toBits &&& (sign - 1)) ||| (y.toBits &&& sign))

/-- Functions of one number. -/
def functions : List (String × (Float → Float)) :=
  [("sqrt", Float.sqrt), ("fabs", Float.abs), ("floor", Float.floor), ("ceil", Float.ceil),
    ("round", Float.round), ("trunc", fun x => if x < 0 then x.ceil else x.floor),
    ("exp", Float.exp), ("exp2", Float.exp2), ("log", Float.log), ("log2", Float.log2),
    ("log10", Float.log10), ("sin", Float.sin), ("cos", Float.cos), ("tan", Float.tan),
    ("asin", Float.asin), ("acos", Float.acos), ("atan", Float.atan), ("sinh", Float.sinh),
    ("cosh", Float.cosh), ("tanh", Float.tanh), ("cbrt", Float.cbrt)]

/-- Functions of two numbers. -/
def functions₂ : List (String × (Float → Float → Float)) :=
  [("pow", Float.pow), ("atan2", Float.atan2), ("copysign", withSign),
    ("fmin", fun x y => if x.isNaN then y else if y < x then y else x),
    ("fmax", fun x y => if x.isNaN then y else if x < y then y else x)]

/-- The name of a function on the usual type, and the type that the last letter of its name chooses. -/
def splitType (id : String) : List (String × FloatType) :=
  let cs := id.toList
  (id, .double) ::
    match cs.getLast? with
    | some 'f' => [(String.ofList cs.dropLast, .single)]
    | some 'l' => [(String.ofList cs.dropLast, .extended)]
    | _ => []

/-- The type of the numbers of a function. -/
def realType? (id : String) : Option FloatType :=
  (splitType id).findSome? fun (name, t) =>
    if (functions.lookup name).isSome || (functions₂.lookup name).isSome then some t else none

/-- The result of a function on floating-point numbers. -/
def onReals? (id : String) (args : List Value) : Option Value :=
  (splitType id).findSome? fun (name, t) =>
    match args with
    | [x] => do return .real (.ofFloat t ((← functions.lookup name) (← x.toFloat?)))
    | [x, y] => do
      return .real (.ofFloat t ((← functions₂.lookup name) (← x.toFloat?) (← y.toFloat?)))
    | _ => none

/-- Functions on integers, with the type of the argument and that of the result. -/
def onIntegers : List (String × IntType × IntType × (Nat → Int → Int)) :=
  let magnitude := fun (_ : Nat) (n : Int) => (n.natAbs : Int)
  let ones := fun (_ : Nat) (n : Int) => ((List.range 64).countP n.toNat.testBit : Int)
  let leading := fun (bits : Nat) (n : Int) => (bits - 1 - n.toNat.log2 : Int)
  let trailing := fun (bits : Nat) (n : Int) =>
    (((List.range bits).find? n.toNat.testBit).getD bits : Int)
  let parity := fun (_ : Nat) (n : Int) => ((List.range 64).countP n.toNat.testBit % 2 : Int)
  let first := fun (bits : Nat) (n : Int) =>
    (((List.range bits).find? (n % (1 <<< bits : Nat)).toNat.testBit).elim 0 (· + 1) : Int)
  let swapped := fun (bits : Nat) (n : Int) => (ofLeBytes (leBytes (bits / 8) n.toNat).reverse : Int)
  [("parity", .unsignedInt, .int, parity), ("parityl", .unsignedLong, .int, parity),
    ("parityll", .unsignedLong, .int, parity), ("ffs", .int, .int, first),
    ("ffsl", .long, .int, first), ("ffsll", .long, .int, first),
    ("bswap16", IntType.halfWord, .halfWord, swapped), ("bswap32", .unsignedInt, .unsignedInt, swapped),
    ("bswap64", .unsignedLong, .unsignedLong, swapped), ("abs", .int, .int, magnitude),
    ("labs", .long, .long, magnitude),
    ("llabs", .long, .long, magnitude), ("popcount", .unsignedInt, .int, ones),
    ("popcountl", .unsignedLong, .int, ones), ("popcountll", .unsignedLong, .int, ones),
    ("clz", .unsignedInt, .int, leading), ("clzl", .unsignedLong, .int, leading),
    ("clzll", .unsignedLong, .int, leading), ("ctz", .unsignedInt, .int, trailing),
    ("ctzl", .unsignedLong, .int, trailing), ("ctzll", .unsignedLong, .int, trailing)]

/-- Questions about one number. -/
def questions : List (String × (Float → Int)) :=
  let ofBool (b : Bool) : Int := if b then 1 else 0
  [("isnan", fun x => ofBool x.isNaN), ("isfinite", fun x => ofBool x.isFinite),
    ("isinf", fun x => ofBool x.isInf),
    ("isinf_sign", fun x => if x.isInf then if x < 0 then -1 else 1 else 0),
    ("signbit", fun x => ofBool (0x8000000000000000 ≤ x.toBits))]

/-- Numbers that functions without an argument of meaning give. -/
def constants : List (String × FloatType × UInt64) :=
  let infinite : UInt64 := 0x7FF0000000000000
  let nan : UInt64 := 0x7FF8000000000000
  [("inf", .double, infinite), ("inff", .single, infinite), ("infl", .extended, infinite),
    ("huge_val", .double, infinite), ("huge_valf", .single, infinite), ("nan", .double, nan),
    ("nanf", .single, nan), ("nanl", .extended, nan)]

/-- The number of the class of a type. -/
def classOf : Value → Int
  | .nothing => 0
  | .integer _ => 1
  | .pointer .. => 5
  | .real _ => 8
  | .record .. => 12

/-! ## Calls -/

/-- The name of a function without what marks it as known to the compiler. -/
def plainName (id : String) : String :=
  ((Text.dropPrefix? "__builtin_".toList id.toList).map String.ofList).getD id

/-- The type of the result of a function. -/
def resultType (id : String) : CType :=
  let id := plainName id
  if id ∈ ["memcpy", "memmove", "mempcpy", "memset", "memchr"] then .pointer .void
  else if id ∈ ["malloc", "calloc", "alloca"] then .pointer .void
  else if id ∈ ["strchr", "strrchr", "strcpy", "strcat"] then .pointer CType.char
  else if id ∈ ["strlen", "strnlen", "strspn", "strcspn"] then CType.size
  else match onIntegers.lookup id, (realType? id).or ((constants.lookup id).map (·.1)) with
    | some (_, result, _), _ => .integer result
    | none, some t => .real t
    | none, none => CType.int

/-- Functions that have an address. -/
def names : List String :=
  ["memcpy", "memmove", "mempcpy", "memset", "memcmp", "memchr", "strlen", "strnlen", "strcmp",
    "strncmp", "strchr", "strrchr", "strspn", "strcspn", "strcpy", "strcat"]

/-- The address of a function, which comes after those of the services. -/
def address? (id : String) : Option Nat :=
  (names.idxOf? id).map fun index => Region.address (.service (index + 3)) 0

/-- Calls a function of the standard library. -/
def call (id : String) (args : List Value) : Run Value := do
  let id := plainName id
  match onIntegers.lookup id, args with
  | some (t, result, f), [x] =>
    return ofInt result (f t.bits (t.wrap (← Run.number x)))
  | _, _ =>
    match onReals? id args, args.head?.bind (·.toFloat?), questions.lookup id, constants.lookup id with
    | some v, _, _, _ => return v
    | none, some x, some question, _ => return ofInt .int (question x)
    | none, _, _, some (t, bits) => return .real (.ofBits t bits)
    | none, _, _, none =>
      if id = "classify_type" then return ofInt .int (classOf (args.head?.getD .nothing))
      else onMemory id args <|> onPlaces id args

/-- Calls a service, or the function of the standard library after them. -/
def callAt (index : Nat) (args : List Value) : Run Value := do
  if index < 3 then Run.service index args
  else
    let id ← names[index - 3]?
    call id args

end Routine

end OpFusion
