/-
  Buffers: arrays of any number of axes in one run of bytes.

  A buffer has its extents, a stride in bytes per axis, flags that say which dense layouts the strides
  describe, and its storage, a whole number of words of eight bytes and at least one. Values are
  given and returned in logical row-major order; `byteOffset` says where the element at a logical
  position lies.
-/
import OpFusion.Element
import OpFusion.Error
import OpFusion.Text.Quoted

namespace OpFusion

/-- The order in which the axes of a buffer vary in storage. -/
inductive Layout where
  /-- The last axis fastest. -/
  | rowMajor
  /-- The first axis fastest. -/
  | columnMajor
  deriving DecidableEq

/-- An array with its storage. -/
structure Buffer where
  dtype : DType
  dims : List Nat
  strides : List Int64
  flags : Nat
  storage : List UInt8
  deriving DecidableEq

namespace Buffer

/-! ## Shapes -/

/-- The number of values of a machine word of 64 bits. -/
def wordLimit : Nat := 0x10000000000000000

/-- The number of nonnegative values of a signed word of 64 bits. -/
def signedLimit : Nat := 0x8000000000000000

/-- What a machine can allocate: fewer bytes than `limit`, and never more than a signed word counts. -/
structure Memory where
  limit : Nat
  le_signed : limit ≤ signedLimit

/-- The memory that machines have at hand. -/
def Memory.usual : Memory := ⟨0x800000000, by decide⟩

/-- A product of two words, if it fits in a word. -/
def checkedMul (a b : Nat) : Option Nat := if a * b < wordLimit then some (a * b) else none

/-- The product of extents after `acc`, from the left; every partial product has to fit. -/
def countFrom (acc : Nat) : List Nat → Option Nat
  | [] => some acc
  | dim :: dims => (checkedMul acc dim).bind fun acc => countFrom acc dims

/-- The number of elements of a shape. -/
def elementCount (dims : List Nat) : Option Nat := countFrom 1 dims

/-- The number of words of eight bytes that hold so many bytes. -/
def wordCount (byteLength : Nat) : Nat := max 1 ((byteLength + 7) / 8)

/-- A product of signed words that stops at their bounds; neither factor is negative. -/
def saturatingMul (a b : Int64) : Int64 :=
  if a.toInt * b.toInt < (signedLimit : Int) then a * b else Int64.ofInt (signedLimit - 1)

/-- The extent that a stride is multiplied by: an empty axis counts as one. -/
def strideExtent (dim : Nat) : Int64 := Int64.ofNat (max 1 dim)

/-- Strides from the fastest axis on, starting with the given one. -/
def stridesFrom (stride : Int64) : List Nat → List Int64
  | [] => []
  | dim :: dims => stride :: stridesFrom (saturatingMul stride (strideExtent dim)) dims

/-- The strides of a dense layout. -/
def denseStrides (layout : Layout) (size : Nat) (dims : List Nat) : List Int64 :=
  match layout with
  | .rowMajor => (stridesFrom (Int64.ofNat size) dims.reverse).reverse
  | .columnMajor => stridesFrom (Int64.ofNat size) dims

/-- The flag of row-major strides. -/
def flagRowMajor : Nat := 1

/-- The flag of column-major strides. -/
def flagColumnMajor : Nat := 2

/-- The layouts that strides describe. -/
def layoutFlags (size : Nat) (dims : List Nat) (strides : List Int64) : Nat :=
  (if strides = denseStrides .rowMajor size dims then flagRowMajor else 0) +
    (if strides = denseStrides .columnMajor size dims then flagColumnMajor else 0)

/-! ## Faults -/

/-- Why there is no such buffer, or no such values in it. -/
inductive Fault where
  /-- The number of elements or of bytes does not fit in a word. -/
  | shapeOverflow (dims : List Nat)
  /-- More bytes than can be allocated. -/
  | outOfMemory (bytes : Nat)
  /-- An extent that is no signed word. -/
  | extentTooLarge (dim : Nat)
  /-- The wrong number of values for the shape. -/
  | valueCount (dims : List Nat) (needed got : Nat)
  /-- Values of another type than the buffer holds. -/
  | typeMismatch (held requested : DType)
  deriving DecidableEq

/-- Extents in brackets. -/
def showDims (dims : List Nat) : String := Text.bracketed (dims.map toString)

/-- The error of a fault: shapes fail when they are allocated, values when they are passed. -/
def Fault.toError : Fault → Error
  | .shapeOverflow dims => .runtime ("buffer shape " ++ showDims dims ++ " overflows")
  | .outOfMemory bytes => .runtime ("failed to allocate " ++ toString bytes ++ " bytes")
  | .extentTooLarge dim => .runtime ("extent " ++ toString dim ++ " does not fit in i64")
  | .valueCount dims needed got =>
    .invocation ("buffer of shape " ++ showDims dims ++ " needs " ++ toString needed ++
      " values, got " ++ toString got)
  | .typeMismatch held requested =>
    .invocation ("buffer holds " ++ held.name ++ ", requested " ++ requested.name)

/-! ## Allocation -/

/-- The number of bytes of a shape. -/
def byteCount (dtype : DType) (dims : List Nat) : Option Nat :=
  (elementCount dims).bind fun count => checkedMul count dtype.size

/-- Why there is no buffer of a shape, if there is none. -/
def fault? (dtype : DType) (dims : List Nat) (memory : Memory := .usual) : Option Fault :=
  match byteCount dtype dims with
  | none => some (.shapeOverflow dims)
  | some bytes =>
    if memory.limit ≤ 8 * wordCount bytes then some (.outOfMemory bytes)
    else (dims.find? (signedLimit ≤ ·)).map .extentTooLarge

/-- A buffer in a dense layout with the given storage. -/
def dense (dtype : DType) (dims : List Nat) (layout : Layout) (storage : List UInt8) : Buffer :=
  let strides := denseStrides layout dtype.size dims
  ⟨dtype, dims, strides, layoutFlags dtype.size dims strides, storage⟩

/-- The storage of a shape, all zero. -/
def zeroStorage (dtype : DType) (dims : List Nat) : List UInt8 :=
  List.replicate (8 * wordCount ((byteCount dtype dims).getD 0)) 0

/-- A buffer of zeros in a dense layout. -/
def allocate (dtype : DType) (dims : List Nat) (layout : Layout) (memory : Memory := .usual) :
    Except Fault Buffer :=
  match fault? dtype dims memory with
  | some fault => .error fault
  | none => .ok (dense dtype dims layout (zeroStorage dtype dims))

/-- A row-major buffer of zeros. -/
def zeros (dtype : DType) (dims : List Nat) (memory : Memory := .usual) : Except Fault Buffer :=
  allocate dtype dims .rowMajor memory

/-! ## Elements -/

/-- The number of axes. -/
def rank (b : Buffer) : Nat := b.dims.length

/-- The number of elements. -/
def length (b : Buffer) : Nat := b.dims.foldl (· * ·) 1

/-- Whether there are no elements. -/
def isEmpty (b : Buffer) : Bool := b.length = 0

/-- Whether the strides are row-major. -/
def isRowMajor (b : Buffer) : Bool := b.flags % 2 = 1

/-- Whether the strides are column-major. -/
def isColumnMajor (b : Buffer) : Bool := b.flags / 2 % 2 = 1

/-- The offset of a position, over the axes from the last one on. -/
def offsetFrom (position : Nat) (offset : Int64) : List (Nat × Int64) → Int64
  | [] => offset
  | (dim, stride) :: axes =>
    if dim = 0 then 0
    else offsetFrom (position / dim) (offset + Int64.ofNat (position % dim) * stride) axes

/-- The byte at which the element at a logical position starts. -/
def byteOffset (b : Buffer) (position : Nat) : Nat :=
  (offsetFrom position 0 (b.dims.zip b.strides).reverse).toUInt64.toNat

/-- The bytes of storage from an offset on. -/
def readBytes (storage : List UInt8) (offset count : Nat) : List UInt8 :=
  (storage.drop offset).take count

/-- The storage with bytes written from an offset on. -/
def writeBytes (storage : List UInt8) (offset : Nat) (bytes : List UInt8) : List UInt8 :=
  storage.take offset ++ bytes ++ storage.drop (offset + bytes.length)

/-- The element at a byte offset. -/
def load (b : Buffer) (d : DType) (offset : Nat) : d.Elem :=
  Element.ofBytes d (readBytes b.storage offset d.size)

/-- Bytes with others in their place from an offset on, as far as there is room. -/
def overwrite (bytes : Array UInt8) (offset : Nat) : List UInt8 → Array UInt8
  | [] => bytes
  | x :: xs => overwrite (bytes.setIfInBounds offset x) (offset + 1) xs

theorem size_overwrite (bytes : Array UInt8) (offset : Nat) (xs : List UInt8) :
    (overwrite bytes offset xs).size = bytes.size := by
  induction xs generalizing bytes offset with
  | nil => rfl
  | cons x xs ih => simp [overwrite, ih]

theorem getElem?_overwrite (bytes : Array UInt8) (offset : Nat) (xs : List UInt8) (i : Nat) :
    (overwrite bytes offset xs)[i]? =
      if offset ≤ i ∧ i < offset + xs.length ∧ i < bytes.size then xs[i - offset]?
      else bytes[i]? := by
  induction xs generalizing bytes offset with
  | nil => simp [overwrite]; omega
  | cons x xs ih =>
    rw [overwrite, ih, Array.size_setIfInBounds, Array.getElem?_setIfInBounds]
    grind

/-- The bytes of a buffer with values at the logical positions from `position` on. -/
def fillFrom (b : Buffer) (d : DType) (position : Nat) (bytes : Array UInt8) :
    List d.Elem → Array UInt8
  | [] => bytes
  | x :: xs =>
    b.fillFrom d (position + 1) (overwrite bytes (b.byteOffset position) (Element.toBytes d x)) xs

/-- A buffer that holds values at its logical positions. -/
def fill (b : Buffer) (d : DType) (values : List d.Elem) : Buffer :=
  { b with storage := (b.fillFrom d 0 b.storage.toArray values).toList }

/-- A buffer with the given layout that holds values, which are in logical order. -/
def ofListWith (d : DType) (dims : List Nat) (values : List d.Elem) (layout : Layout)
    (memory : Memory := .usual) : Except Fault Buffer :=
  match allocate d dims layout memory with
  | .error fault => .error fault
  | .ok b =>
    if values.length = b.length then .ok (b.fill d values)
    else .error (.valueCount dims b.length values.length)

/-- A row-major buffer that holds values. -/
def ofList (d : DType) (dims : List Nat) (values : List d.Elem) (memory : Memory := .usual) :
    Except Fault Buffer :=
  ofListWith d dims values .rowMajor memory

/-- A buffer without axes that holds one value. -/
def scalar (d : DType) (value : d.Elem) (memory : Memory := .usual) : Except Fault Buffer :=
  ofList d [] [value] memory

/-- The elements in logical order, whatever the type of the buffer. The storage is taken as an array,
in which every element is found at once. -/
def elements (b : Buffer) (d : DType) : List d.Elem :=
  let bytes := b.storage.toArray
  (List.range b.length).map fun position =>
    let offset := b.byteOffset position
    Element.ofBytes d (bytes.extract offset (offset + d.size)).toList

/-- Each element is the one at its byte offset. -/
theorem elements_eq (b : Buffer) (d : DType) :
    b.elements d = (List.range b.length).map fun position => b.load d (b.byteOffset position) := by
  simp [elements, load, readBytes, List.extract_eq_take_drop]

/-- The elements in logical order, if they have the given type. -/
def toList (b : Buffer) (d : DType) : Except Fault (List d.Elem) :=
  if b.dtype = d then .ok (b.elements d) else .error (.typeMismatch b.dtype d)

/-- A second buffer with a copy of the storage. -/
def clone (b : Buffer) : Buffer := ⟨b.dtype, b.dims, b.strides, b.flags, b.storage⟩

/-- The bytes of the elements, in storage order. -/
def contents (b : Buffer) : List UInt8 := readBytes b.storage 0 (b.length * b.dtype.size)

/-- The buffer in displays of data. -/
def debug (b : Buffer) : String :=
  "Buffer \x7b dtype: " ++ b.dtype.label ++ ", dims: " ++ showDims b.dims ++ ", strides: " ++
    Text.bracketed (b.strides.map fun s => toString s.toInt) ++ " \x7d"

end Buffer

end OpFusion
