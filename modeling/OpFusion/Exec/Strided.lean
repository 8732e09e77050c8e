/-
  How generated code finds the elements of a buffer.

  All numbers are signed words of 64 bits, as in generated code.
-/
import OpFusion.Buffer

namespace OpFusion.Strided

/-- The extents of a buffer in generated code. -/
def dims (b : Buffer) : List Int64 := b.dims.map Int64.ofNat

/-- The number of elements: the product of the extents from the left. -/
def count (b : Buffer) : Int64 := (dims b).foldl (· * ·) 1

/-- Whether two buffers have the same extents. -/
def sameDims (a b : Buffer) : Bool := dims a = dims b

/-- The byte offset of a row-major position, over the axes from the last one on; an axis without
extent is passed over. -/
def offsetFrom (linear offset : Int64) : List (Int64 × Int64) → Int64
  | [] => offset
  | (extent, stride) :: axes =>
    if 0 < extent then offsetFrom (linear / extent) (offset + linear % extent * stride) axes
    else offsetFrom linear offset axes

/-- The byte offset of a row-major position. -/
def offset (b : Buffer) (linear : Int64) : Int64 :=
  offsetFrom linear 0 ((dims b).zip b.strides).reverse

/-- The element at a byte offset within the storage. -/
def loadAt? (b : Buffer) (d : DType) (byte : Int64) : Option d.Elem :=
  if 0 ≤ byte.toInt ∧ byte.toInt.toNat + d.size ≤ b.storage.length then
    some (b.load d byte.toInt.toNat)
  else none

/-- The element at a row-major position. -/
def load? (b : Buffer) (d : DType) (linear : Nat) : Option d.Elem :=
  loadAt? b d (offset b (Int64.ofNat linear))

/-- All elements in row-major order. The storage is taken as an array, in which every element is found
at once. -/
def elements? (b : Buffer) (d : DType) : Option (List d.Elem) :=
  let bytes := b.storage.toArray
  (List.range (count b).toInt.toNat).mapM fun linear =>
    let byte := (offset b (Int64.ofNat linear)).toInt
    if 0 ≤ byte ∧ byte.toNat + d.size ≤ bytes.size then
      some (Element.ofBytes d (bytes.extract byte.toNat (byte.toNat + d.size)).toList)
    else none

/-- Each element is the one at its row-major position. -/
theorem elements?_eq (b : Buffer) (d : DType) :
    elements? b d = (List.range (count b).toInt.toNat).mapM (load? b d) := by
  simp only [elements?, List.size_toArray, List.extract_toArray, List.extract_eq_take_drop,
    Nat.add_sub_cancel_left]
  rfl

end OpFusion.Strided
