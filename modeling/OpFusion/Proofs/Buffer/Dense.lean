/-
  Well-formed buffers: those that the constructors make and that computations keep.

  A well-formed buffer has the strides of a dense layout, the flags that follow from them, and as much
  storage as its shape asks for. Its elements are found within the storage, by generated code as by the
  buffer itself (`Strided.elements?_eq_elements`), and values that are written densely to a row-major
  buffer are its elements from there on (`elements_written`).
-/
import OpFusion.Proofs.Buffer.Address
import OpFusion.Proofs.Outcome
import OpFusion.Proofs.Wire

namespace OpFusion

/-! ## Elements as bytes -/

namespace Element

@[simp] theorem length_toBytes (d : DType) (x : d.Elem) : (toBytes d x).length = d.size :=
  length_leBytes _ _

theorem bits_lt (d : DType) (x : d.Elem) : bits d x < 256 ^ d.size := by
  cases d with
  | f32 => exact UInt32.toNat_lt x
  | f64 => exact UInt64.toNat_lt x
  | i32 => exact UInt32.toNat_lt (Int32.toUInt32 x)
  | i64 => exact UInt64.toNat_lt (Int64.toUInt64 x)
  | u8 => exact UInt8.toNat_lt x

theorem ofBits_bits (d : DType) (x : d.Elem) : ofBits d (bits d x) = x := by
  cases d with
  | f32 => exact UInt32.ofNat_toNat
  | f64 => exact UInt64.ofNat_toNat
  | i32 => simp [ofBits, bits]
  | i64 => simp [ofBits, bits]
  | u8 => exact UInt8.ofNat_toNat

/-- An element is read back from its bytes. -/
theorem ofBytes_toBytes (d : DType) (x : d.Elem) : ofBytes d (toBytes d x) = x := by
  rw [ofBytes, toBytes, ofLeBytes_leBytes, Nat.mod_eq_of_lt (bits_lt d x), ofBits_bits]

theorem bits_ofBits {d : DType} {n : Nat} (h : n < 256 ^ d.size) : bits d (ofBits d n) = n := by
  cases d with
  | f32 => exact UInt32.toNat_ofNat_of_lt' h
  | f64 => exact UInt64.toNat_ofNat_of_lt' h
  | i32 => exact UInt32.toNat_ofNat_of_lt' h
  | i64 => exact UInt64.toNat_ofNat_of_lt' h
  | u8 => exact UInt8.toNat_ofNat_of_lt' h

/-- As many bytes as an element has are those of the element they hold. -/
theorem toBytes_ofBytes {d : DType} {bytes : List UInt8} (h : bytes.length = d.size) :
    toBytes d (ofBytes d bytes) = bytes := by
  have hlt : ofLeBytes bytes < 256 ^ d.size := h ▸ ofLeBytes_lt bytes
  rw [toBytes, ofBytes, bits_ofBits hlt, ← h, leBytes_ofLeBytes]

end Element

namespace DType

theorem size_pos (d : DType) : 0 < d.size := by cases d <;> decide

theorem size_le (d : DType) : d.size ≤ 8 := by cases d <;> decide

end DType

namespace Buffer

/-! ## Shapes that can be allocated -/

theorem length_eq (b : Buffer) : b.length = b.dims.prod := by
  rw [length, List.prod_eq_foldl]

theorem countFrom_eq {acc n : Nat} {dims : List Nat} (h : countFrom acc dims = some n) :
    n = acc * dims.prod := by
  induction dims generalizing acc with
  | nil => simpa [countFrom, eq_comm] using h
  | cons dim dims ih =>
    obtain ⟨acc', hacc, hrest⟩ := Option.bind_eq_some_iff.1 h
    have hmul : acc' = acc * dim := by
      simp only [checkedMul, Option.ite_none_right_eq_some, Option.some.injEq] at hacc
      exact hacc.2.symm
    rw [ih hrest, hmul, List.prod_cons, Nat.mul_assoc]

/-- What a shape without a fault promises. -/
structure Sound (dtype : DType) (dims : List Nat) (memory : Memory := .usual) : Prop where
  bytes : byteCount dtype dims = some (dims.prod * dtype.size)
  limit : 8 * wordCount (dims.prod * dtype.size) < memory.limit
  extents : ∀ d ∈ dims, d < 2 ^ 63

variable {memory : Memory}

theorem sound_iff (dtype : DType) (dims : List Nat) :
    fault? dtype dims memory = none ↔ Sound dtype dims memory := by
  constructor
  · intro h
    unfold fault? at h
    split at h
    · cases h
    · next bytes hbytes =>
      obtain ⟨count, hcount, hmul⟩ := Option.bind_eq_some_iff.1 hbytes
      have hprod : count = dims.prod := by simpa using countFrom_eq hcount
      have heq : bytes = dims.prod * dtype.size := by
        simp only [checkedMul, Option.ite_none_right_eq_some, Option.some.injEq] at hmul
        rw [← hmul.2, hprod]
      split at h
      · cases h
      · next hlimit =>
        refine ⟨heq ▸ hbytes, by rw [← heq]; omega, fun d hd => ?_⟩
        rw [Option.map_eq_none_iff, List.find?_eq_none] at h
        have hlt : ¬ signedLimit ≤ d := by simpa using h d hd
        exact Nat.lt_of_not_le hlt
  · intro h
    have hfind : dims.find? (fun d => decide (signedLimit ≤ d)) = none := by
      rw [List.find?_eq_none]
      intro d hd hle
      exact Nat.not_le.2 (h.extents d hd) (of_decide_eq_true hle)
    simp [fault?, h.bytes, h.limit, hfind]

namespace Sound

variable {dtype : DType} {dims : List Nat}

theorem byteLength_le (_ : Sound dtype dims memory) :
    dims.prod * dtype.size ≤ 8 * wordCount (dims.prod * dtype.size) := by
  simp only [wordCount]; omega

/-- The bytes of all elements are few enough for a signed word. -/
theorem byteLength_lt (h : Sound dtype dims memory) : dims.prod * dtype.size < 2 ^ 63 :=
  calc dims.prod * dtype.size ≤ 8 * wordCount (dims.prod * dtype.size) := h.byteLength_le
    _ < memory.limit := h.limit
    _ ≤ 2 ^ 63 := memory.le_signed

theorem prod_lt (h : Sound dtype dims memory) : dims.prod < 2 ^ 63 :=
  Nat.lt_of_le_of_lt (Nat.le_mul_of_pos_right _ dtype.size_pos) h.byteLength_lt

/-- The extents are read back from their words. -/
theorem map_toNat_ofNat (h : Sound dtype dims memory) :
    (dims.map Int64.ofNat).map (fun dim => dim.toInt.toNat) = dims := by
  rw [List.map_map]
  refine (List.map_congr_left fun dim hdim => ?_).trans (List.map_id dims)
  simp [Int64.toNatClampNeg_ofNat_of_lt (h.extents dim hdim)]

theorem scalar (dtype : DType) : Sound dtype [] := by
  rw [← sound_iff]; cases dtype <;> decide

end Sound

/-! ## Well-formed buffers -/

/-- The strides are those of a dense layout, the flags follow from them, the shape can be allocated and
the storage has its size. -/
structure WellFormed (b : Buffer) (memory : Memory := .usual) : Prop where
  strides : ∃ layout, b.strides = denseStrides layout b.dtype.size b.dims
  flags : b.flags = layoutFlags b.dtype.size b.dims b.strides
  sound : Sound b.dtype b.dims memory
  storage : b.storage.length = 8 * wordCount (b.dims.prod * b.dtype.size)

theorem wellFormed_dense {dtype : DType} {dims : List Nat} (h : Sound dtype dims memory)
    (layout : Layout) {storage : List UInt8}
    (hs : storage.length = 8 * wordCount (dims.prod * dtype.size)) :
    (dense dtype dims layout storage).WellFormed memory :=
  ⟨⟨layout, rfl⟩, rfl, h, hs⟩

theorem length_zeroStorage {dtype : DType} {dims : List Nat} (h : Sound dtype dims memory) :
    (zeroStorage dtype dims).length = 8 * wordCount (dims.prod * dtype.size) := by
  simp [zeroStorage, h.bytes]

/-- What an allocation gives. -/
theorem allocate_eq_ok {dtype : DType} {dims : List Nat} {layout : Layout} {b : Buffer} :
    allocate dtype dims layout memory = .ok b ↔
      Sound dtype dims memory ∧ b = dense dtype dims layout (zeroStorage dtype dims) := by
  rw [← sound_iff, allocate]
  split
  · next hfault => simp [hfault]
  · next hfault => simp [hfault, eq_comm]

theorem wellFormed_allocate {dtype : DType} {dims : List Nat} {layout : Layout} {b : Buffer}
    (h : allocate dtype dims layout memory = .ok b) : b.WellFormed memory := by
  obtain ⟨hsound, rfl⟩ := allocate_eq_ok.1 h
  exact wellFormed_dense hsound layout (length_zeroStorage hsound)

theorem size_fillFrom (b : Buffer) (d : DType) (position : Nat) (bytes : Array UInt8)
    (values : List d.Elem) : (b.fillFrom d position bytes values).size = bytes.size := by
  induction values generalizing position bytes with
  | nil => rfl
  | cons x values ih => rw [fillFrom, ih, size_overwrite]

/-- What a buffer with values is made from. -/
theorem ofListWith_eq_ok {d : DType} {dims : List Nat} {values : List d.Elem} {layout : Layout}
    {b : Buffer} (h : ofListWith d dims values layout memory = .ok b) :
    ∃ b₀, allocate d dims layout memory = .ok b₀ ∧ values.length = b₀.length ∧ b = b₀.fill d values := by
  unfold ofListWith at h
  split at h
  · cases h
  · next b₀ halloc =>
    split at h
    · next hlength =>
      cases h
      exact ⟨b₀, halloc, hlength, rfl⟩
    · cases h

theorem WellFormed.fill {b : Buffer} (h : b.WellFormed memory) (d : DType) (values : List d.Elem) :
    (b.fill d values).WellFormed memory := by
  refine ⟨h.strides, h.flags, h.sound, ?_⟩
  simpa [Buffer.fill, size_fillFrom] using h.storage

/-- Every buffer that is made from values is well-formed. -/
theorem wellFormed_ofListWith {d : DType} {dims : List Nat} {values : List d.Elem} {layout : Layout}
    {b : Buffer} (h : ofListWith d dims values layout memory = .ok b) : b.WellFormed memory := by
  obtain ⟨b₀, halloc, -, rfl⟩ := ofListWith_eq_ok h
  exact (wellFormed_allocate halloc).fill d values

namespace WellFormed

variable {b : Buffer}

/-- The flag says whether the strides are row-major. -/
theorem isRowMajor_iff (h : b.WellFormed memory) :
    b.isRowMajor = true ↔ b.strides = denseStrides .rowMajor b.dtype.size b.dims := by
  rw [isRowMajor, h.flags, layoutFlags, flagRowMajor, flagColumnMajor]
  split <;> split <;> simp_all

theorem byteLength_le (h : b.WellFormed memory) : b.dims.prod * b.dtype.size ≤ b.storage.length := by
  rw [h.storage]; exact h.sound.byteLength_le

theorem size_le_storage (h : b.WellFormed memory) : b.dtype.size ≤ b.storage.length := by
  have := b.dtype.size_le
  rw [h.storage, wordCount]; omega

end WellFormed

/-! ## Places of elements -/

/-- The strides of a dense layout fit in words. -/
theorem axes_eq {dtype : DType} {dims : List Nat} (h : Sound dtype dims memory) (hpos : ∀ d ∈ dims, 0 < d)
    (layout : Layout) :
    (dims.zip (denseStrides layout dtype.size dims)).reverse =
      wordAxes (denseAxes layout dtype.size dims) := by
  cases layout with
  | rowMajor =>
    have hrev : ∀ d ∈ dims.reverse, 0 < d := fun d hd => hpos d (List.mem_reverse.1 hd)
    have hlt : dims.reverse.prod * dtype.size < 2 ^ 63 := by
      rw [List.prod_reverse]; exact h.byteLength_lt
    rw [denseStrides, stridesFrom_eq dtype.size_pos hrev hlt, List.zip, List.reverse_zipWith (by simp),
      List.reverse_reverse, wordAxes, ← List.zip, List.zip_map_right]
    rfl
  | columnMajor =>
    rw [denseStrides, stridesFrom_eq dtype.size_pos hpos h.byteLength_lt, wordAxes, denseAxes,
      List.map_reverse, List.zip_map_right]
    rfl

/-- In a dense layout the offset of a position is its place in storage times the size of an element. -/
theorem offset_eq {dtype : DType} {dims : List Nat} (h : Sound dtype dims memory)
    (hpos : ∀ d ∈ dims, 0 < d) (layout : Layout) (position : Nat) :
    offsetFrom position 0 (dims.zip (denseStrides layout dtype.size dims)).reverse =
      Int64.ofNat (storageIndex layout dims position * dtype.size) := by
  rw [axes_eq h hpos, offsetFrom_eq fun a ha => hpos a.1 (of_mem_denseAxes hpos ha).1, Int64.zero_add,
    offsetOf_denseAxes hpos]

namespace WellFormed

variable {b : Buffer}

/-- The byte offset of a position is its place in storage times the size of an element. -/
theorem byteOffset_eq (h : b.WellFormed memory) {layout : Layout}
    (hlayout : b.strides = denseStrides layout b.dtype.size b.dims) {position : Nat}
    (hp : position < b.length) :
    b.byteOffset position = storageIndex layout b.dims position * b.dtype.size := by
  rw [length_eq] at hp
  have hpos : ∀ d ∈ b.dims, 0 < d := pos_of_prod_ne_zero (by omega)
  have hlt : storageIndex layout b.dims position * b.dtype.size < 2 ^ 63 :=
    Nat.lt_of_le_of_lt (Nat.mul_le_mul_right _ (Nat.le_of_lt (storageIndex_lt hpos layout position)))
      h.sound.byteLength_lt
  rw [byteOffset, hlayout, offset_eq h.sound hpos, Int64.toUInt64_ofNat', UInt64.toNat_ofNat']
  exact Nat.mod_eq_of_lt (by omega)

/-- The byte offset as a word. -/
theorem ofNat_byteOffset (h : b.WellFormed memory) {position : Nat} (hp : position < b.length) :
    Int64.ofNat (b.byteOffset position) = offsetFrom position 0 (b.dims.zip b.strides).reverse := by
  obtain ⟨layout, hlayout⟩ := h.strides
  have hpos : ∀ d ∈ b.dims, 0 < d := pos_of_prod_ne_zero (by rw [← length_eq]; omega)
  rw [h.byteOffset_eq hlayout hp, hlayout, offset_eq h.sound hpos]

/-- Every element lies within the bytes of all elements. -/
theorem byteOffset_add_le (h : b.WellFormed memory) {position : Nat} (hp : position < b.length) :
    b.byteOffset position + b.dtype.size ≤ b.length * b.dtype.size := by
  obtain ⟨layout, hlayout⟩ := h.strides
  have hpos : ∀ d ∈ b.dims, 0 < d := pos_of_prod_ne_zero (by rw [← length_eq]; omega)
  rw [h.byteOffset_eq hlayout hp, length_eq]
  calc storageIndex layout b.dims position * b.dtype.size + b.dtype.size
      = (storageIndex layout b.dims position + 1) * b.dtype.size := by rw [Nat.add_mul, Nat.one_mul]
    _ ≤ b.dims.prod * b.dtype.size := Nat.mul_le_mul_right _ (storageIndex_lt hpos layout position)

theorem byteOffset_lt (h : b.WellFormed memory) {position : Nat} (hp : position < b.length) :
    b.byteOffset position < 2 ^ 63 := by
  have hle := h.byteOffset_add_le hp
  have hlt := h.sound.byteLength_lt
  rw [length_eq] at hle
  omega

/-- The extents of a buffer with elements are positive words. -/
theorem extents_of_lt (h : b.WellFormed memory) {position : Nat} (hp : position < b.length) :
    ∀ a ∈ (b.dims.zip b.strides).reverse, 0 < a.1 ∧ a.1 < 2 ^ 63 := by
  intro a ha
  have hmem : a.1 ∈ b.dims := (List.of_mem_zip (List.mem_reverse.1 ha)).1
  exact ⟨pos_of_prod_ne_zero (by rw [← length_eq]; omega) a.1 hmem, h.sound.extents a.1 hmem⟩

/-- **In a row-major buffer the elements follow each other.** -/
theorem byteOffset_rowMajor (h : b.WellFormed memory) (hrow : b.isRowMajor = true) {position : Nat}
    (hp : position < b.length) : b.byteOffset position = position * b.dtype.size := by
  rw [h.byteOffset_eq (h.isRowMajor_iff.1 hrow) hp, storageIndex, ← length_eq, Nat.mod_eq_of_lt hp]

end WellFormed

end Buffer

/-! ## Reading in generated code -/

namespace Strided

open Buffer (Memory length_eq pos_of_prod_ne_zero)

variable {b : Buffer} {memory : Memory}

/-- Extents as words have the product of the extents. -/
theorem foldl_ofNat (dims : List Nat) (acc : Nat) :
    (dims.map Int64.ofNat).foldl (· * ·) (Int64.ofNat acc) = Int64.ofNat (dims.foldl (· * ·) acc) := by
  induction dims generalizing acc with
  | nil => rfl
  | cons dim dims ih => rw [List.map_cons, List.foldl_cons, ← Int64.ofNat_mul, ih, List.foldl_cons]

theorem toInt_count (h : b.WellFormed memory) : (count b).toInt = b.length := by
  have hcount : count b = Int64.ofNat b.length := foldl_ofNat b.dims 1
  have hlt : b.length < 2 ^ 63 := by rw [length_eq]; exact h.sound.prod_lt
  rw [hcount, Int64.toInt_ofNat_of_lt hlt]

theorem toNat_count (h : b.WellFormed memory) : (count b).toInt.toNat = b.length := by
  rw [toInt_count h, Int.toNat_natCast]

/-- The same extents as words are the same extents. -/
theorem sameDims_iff {c : Buffer} (hb : b.WellFormed memory) (hc : c.WellFormed memory) :
    sameDims b c = true ↔ b.dims = c.dims := by
  rw [sameDims, decide_eq_true_iff]
  refine ⟨fun h => ?_, fun h => by rw [dims, dims, h]⟩
  rw [← hb.sound.map_toNat_ofNat, ← hc.sound.map_toNat_ofNat]
  exact congrArg (List.map fun dim : Int64 => dim.toInt.toNat) h

/-- Generated code finds the same offset as the buffer itself. -/
theorem offset_eq (h : b.WellFormed memory) {position : Nat} (hp : position < b.length) :
    offset b (Int64.ofNat position) = Int64.ofNat (b.byteOffset position) := by
  have hlt : position < 2 ^ 63 := Nat.lt_trans hp (length_eq b ▸ h.sound.prod_lt)
  have hextents := h.extents_of_lt hp
  rw [h.ofNat_byteOffset hp, offset, dims, List.zip_map_left, ← List.map_reverse]
  exact offsetFrom_eq (fun a ha => (hextents a ha).1) (fun a ha => (hextents a ha).2) hlt 0

/-- Generated code finds every element where the buffer has it. -/
theorem load?_eq (h : b.WellFormed memory) {position : Nat} (hp : position < b.length) :
    load? b b.dtype position = some (b.load b.dtype (b.byteOffset position)) := by
  have hfits : b.byteOffset position + b.dtype.size ≤ b.storage.length :=
    Nat.le_trans (length_eq b ▸ h.byteOffset_add_le hp) h.byteLength_le
  rw [load?, loadAt?, offset_eq h hp, Int64.toInt_ofNat_of_lt (h.byteOffset_lt hp)]
  simp [hfits]

/-- **Generated code reads the elements of a buffer of any layout in logical order.** -/
theorem elements?_eq_elements (h : b.WellFormed memory) : elements? b b.dtype = some (b.elements b.dtype) := by
  rw [elements?_eq, toNat_count h, Buffer.elements_eq]
  exact Outcome.mapM_eq_some_map fun position hp => load?_eq h (List.mem_range.1 hp)

end Strided

/-! ## Writing densely -/

namespace Buffer

variable {memory : Memory}

/-- The bytes of one of several elements. -/
theorem readBytes_flatMap {d : DType} (xs : List d.Elem) (rest : List UInt8) {i : Nat}
    (hi : i < xs.length) :
    readBytes (xs.flatMap (Element.toBytes d) ++ rest) (i * d.size) d.size =
      Element.toBytes d xs[i] := by
  induction xs generalizing i with
  | nil => simp at hi
  | cons x xs ih =>
    rw [List.flatMap_cons, List.append_assoc]
    cases i with
    | zero =>
      rw [readBytes, Nat.zero_mul, List.drop_zero, List.getElem_cons_zero]
      exact List.take_left' (Element.length_toBytes d x)
    | succ i =>
      have hdrop : (i + 1) * d.size = (Element.toBytes d x).length + i * d.size := by
        rw [Element.length_toBytes, Nat.add_mul, Nat.one_mul, Nat.add_comm]
      rw [readBytes, hdrop, ← List.drop_drop, List.drop_left, List.getElem_cons_succ]
      exact ih (Nat.lt_of_succ_lt_succ hi)

theorem length_flatMap_toBytes {d : DType} (xs : List d.Elem) :
    (xs.flatMap (Element.toBytes d)).length = xs.length * d.size := by
  induction xs with
  | nil => simp
  | cons x xs ih => rw [List.flatMap_cons, List.length_append, ih, Element.length_toBytes,
      List.length_cons, Nat.add_mul, Nat.one_mul, Nat.add_comm]

theorem flatMap_toBytes_split {d : DType} (xs : List d.Elem) (rest : List UInt8) (i : Nat) :
    xs.flatMap (Element.toBytes d) ++ rest = (xs.take i).flatMap (Element.toBytes d) ++
      ((xs.drop i).flatMap (Element.toBytes d) ++ rest) := by
  rw [← List.append_assoc, ← List.flatMap_append, List.take_append_drop]

theorem length_writeBytes {storage bytes : List UInt8} {offset : Nat}
    (h : offset + bytes.length ≤ storage.length) :
    (writeBytes storage offset bytes).length = storage.length := by
  simp [writeBytes]; omega

/-- A well-formed buffer stays so when bytes are written within its storage. -/
theorem WellFormed.writeBytes {b : Buffer} (h : b.WellFormed memory) {offset : Nat} {bytes : List UInt8}
    (hle : offset + bytes.length ≤ b.storage.length) :
    { b with storage := Buffer.writeBytes b.storage offset bytes }.WellFormed memory :=
  ⟨h.strides, h.flags, h.sound, (length_writeBytes hle).trans h.storage⟩

/-- A buffer with bytes written at its start. -/
def overwritten (b : Buffer) (bytes : List UInt8) : Buffer :=
  { b with storage := Buffer.writeBytes b.storage 0 bytes }

theorem WellFormed.overwritten {b : Buffer} (h : b.WellFormed memory) {bytes : List UInt8}
    (hle : bytes.length ≤ b.storage.length) : (b.overwritten bytes).WellFormed memory :=
  h.writeBytes (by omega)

/-- Pieces of one size that follow each other in storage. -/
theorem flatMap_readBytes (storage : List UInt8) (size count : Nat) :
    (List.range count).flatMap (fun i => readBytes storage (i * size) size) =
      storage.take (count * size) := by
  induction count with
  | zero => simp
  | succ count ih =>
    rw [List.range_succ, List.flatMap_append, ih, List.flatMap_singleton, readBytes, ← List.take_add,
      Nat.add_mul, Nat.one_mul]

namespace WellFormed

variable {b : Buffer}

/-- The storage of a row-major buffer is the bytes of its elements, and what the last word has left. -/
theorem storage_rowMajor (h : b.WellFormed memory) (hrow : b.isRowMajor = true) :
    b.storage = (b.elements b.dtype).flatMap (Element.toBytes b.dtype) ++
      b.storage.drop (b.length * b.dtype.size) := by
  have hpieces : (b.elements b.dtype).flatMap (Element.toBytes b.dtype) =
      b.storage.take (b.length * b.dtype.size) := by
    rw [elements_eq, List.flatMap_map, ← flatMap_readBytes]
    refine List.flatMap_congr fun i hi => ?_
    have hi := List.mem_range.1 hi
    have hend := h.byteOffset_add_le hi
    have hroom := length_eq b ▸ h.byteLength_le
    rw [load, ← h.byteOffset_rowMajor hrow hi]
    refine Element.toBytes_ofBytes ?_
    rw [readBytes, List.length_take, List.length_drop]
    omega
  rw [hpieces, List.take_append_drop]

/-- Values whose bytes follow each other in the storage of a row-major buffer are its elements. -/
theorem elements_eq_of_storage (h : b.WellFormed memory) (hrow : b.isRowMajor = true)
    {xs : List b.dtype.Elem} (hlen : xs.length = b.length) {rest : List UInt8}
    (hstorage : b.storage = xs.flatMap (Element.toBytes b.dtype) ++ rest) : b.elements b.dtype = xs := by
  rw [elements_eq]
  refine List.ext_getElem (by simp [hlen]) fun i hi hi' => ?_
  rw [List.getElem_map, List.getElem_range, h.byteOffset_rowMajor hrow (hlen ▸ hi'), load, hstorage,
    readBytes_flatMap xs rest hi', Element.ofBytes_toBytes]

end WellFormed

/-- A buffer with values written densely from a position on. -/
def written (b : Buffer) (position : Nat) (xs : List b.dtype.Elem) : Buffer :=
  let bytes := xs.flatMap (Element.toBytes b.dtype)
  { b with storage := Buffer.writeBytes b.storage (position * b.dtype.size) bytes }

theorem written_fits {b : Buffer} (h : b.WellFormed memory) {position : Nat} {xs : List b.dtype.Elem}
    (hle : position + xs.length ≤ b.length) :
    position * b.dtype.size + (xs.flatMap (Element.toBytes b.dtype)).length ≤ b.storage.length :=
  calc position * b.dtype.size + (xs.flatMap (Element.toBytes b.dtype)).length
      = (position + xs.length) * b.dtype.size := by rw [length_flatMap_toBytes, Nat.add_mul]
    _ ≤ b.dims.prod * b.dtype.size := Nat.mul_le_mul_right _ (length_eq b ▸ hle)
    _ ≤ b.storage.length := h.byteLength_le

/-- **Values that are written densely to a row-major buffer are its elements from there on,** and the
others stay. -/
theorem elements_written {b : Buffer} (h : b.WellFormed memory) (hrow : b.isRowMajor = true)
    {position : Nat} {xs : List b.dtype.Elem} (hle : position + xs.length ≤ b.length) :
    (b.written position xs).elements b.dtype =
      (b.elements b.dtype).take position ++ xs ++ (b.elements b.dtype).drop (position + xs.length) := by
  have hlength : (b.elements b.dtype).length = b.length := by simp [elements_eq]
  have hfits := written_fits h hle
  have hstorage := h.storage_rowMajor hrow
  generalize b.elements b.dtype = old at hlength hstorage ⊢
  generalize b.storage.drop (b.length * b.dtype.size) = rest at hstorage
  have hbefore : b.storage.take (position * b.dtype.size) =
      (old.take position).flatMap (Element.toBytes b.dtype) := by
    rw [hstorage, flatMap_toBytes_split old rest position]
    refine List.take_left' ?_
    rw [length_flatMap_toBytes, List.length_take, Nat.min_eq_left (by omega)]
  have hafter : b.storage.drop ((position + xs.length) * b.dtype.size) =
      (old.drop (position + xs.length)).flatMap (Element.toBytes b.dtype) ++ rest := by
    rw [hstorage, flatMap_toBytes_split old rest (position + xs.length)]
    refine List.drop_left' ?_
    rw [length_flatMap_toBytes, List.length_take, Nat.min_eq_left (by omega)]
  have hnew : (b.written position xs).storage =
      (old.take position ++ xs ++ old.drop (position + xs.length)).flatMap (Element.toBytes b.dtype) ++
        rest := by
    rw [written, Buffer.writeBytes, length_flatMap_toBytes, ← Nat.add_mul, hbefore, hafter,
      List.flatMap_append, List.flatMap_append, List.append_assoc, List.append_assoc, List.append_assoc]
  have hcount : (old.take position ++ xs ++ old.drop (position + xs.length)).length = b.length := by
    simp only [List.length_append, List.length_take, List.length_drop, hlength]
    omega
  exact (h.writeBytes hfits).elements_eq_of_storage hrow hcount hnew

/-- As many values as there are elements take the place of all of them. -/
theorem elements_overwritten {b : Buffer} (h : b.WellFormed memory) (hrow : b.isRowMajor = true)
    {xs : List b.dtype.Elem} (hlen : xs.length = b.length) :
    (b.overwritten (xs.flatMap (Element.toBytes b.dtype))).elements b.dtype = xs := by
  have hall : (b.written 0 xs).elements b.dtype = _ := elements_written h hrow (by omega)
  have hnone : (b.elements b.dtype).drop (0 + xs.length) = [] :=
    List.drop_eq_nil_of_le (by simp [elements_eq, hlen])
  rw [hnone, List.append_nil, List.take_zero, List.nil_append] at hall
  rw [written, Nat.zero_mul] at hall
  exact hall

end Buffer

end OpFusion
