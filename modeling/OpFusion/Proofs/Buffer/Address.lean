/-
  Where the elements of a buffer lie.

  A dense layout gives the axes, from the fastest one on, strides that are the products of the extents
  passed so far (`productStrides`). The offset of a position is then a sum of digits times strides
  (`offsetOf`), in natural numbers, and the offsets that buffers and generated code compute in words of
  64 bits are this number (`offsetFrom_eq`, `Strided.offsetFrom_eq`).

  * `offsetOf_productStrides`: in row-major order the element at a position is at that many sizes;
  * `offsetOf_reverse`: in column-major order it is at as many sizes as `columnIndex` says;
  * `storageIndex_bijOn`: in either order the elements take all places, each its own.
-/
import Mathlib
import OpFusion.Exec.Strided

namespace OpFusion.Buffer

/-! ## Offsets as natural numbers -/

/-- The offset of a position over axes of extents and strides: its digits times the strides. -/
def offsetOf (position : Nat) : List (Nat × Nat) → Nat
  | [] => 0
  | (dim, stride) :: axes => position % dim * stride + offsetOf (position / dim) axes

/-- Strides from the fastest axis on, without a bound. -/
def productStrides (stride : Nat) : List Nat → List Nat
  | [] => []
  | dim :: dims => stride :: productStrides (stride * max 1 dim) dims

@[simp] theorem length_productStrides (stride : Nat) (dims : List Nat) :
    (productStrides stride dims).length = dims.length := by
  induction dims generalizing stride with
  | nil => rfl
  | cons dim dims ih => simp [productStrides, ih]

/-- Extents that are all positive have a positive product. -/
theorem prod_pos {dims : List Nat} (h : ∀ d ∈ dims, 0 < d) : 0 < dims.prod := by
  induction dims with
  | nil => simp
  | cons dim dims ih =>
    rw [List.prod_cons]
    exact Nat.mul_pos (h dim (by simp)) (ih fun d hd => h d (by simp [hd]))

/-- No extent of a product that is not zero is zero. -/
theorem pos_of_prod_ne_zero {dims : List Nat} (h : dims.prod ≠ 0) : ∀ d ∈ dims, 0 < d := by
  induction dims with
  | nil => simp
  | cons dim dims ih =>
    rw [List.prod_cons] at h
    intro d hd
    rcases List.mem_cons.1 hd with rfl | hd
    · exact Nat.pos_of_ne_zero fun h0 => h (by simp [h0])
    · exact ih (fun h0 => h (by simp [h0])) d hd

/-- **Positions count the elements in row-major order.** With the strides of the fastest axis first, the
offset of a position is the position, up to the number of elements, times the first stride. -/
theorem offsetOf_productStrides {dims : List Nat} (h : ∀ d ∈ dims, 0 < d) (position stride : Nat) :
    offsetOf position (dims.zip (productStrides stride dims)) = position % dims.prod * stride := by
  induction dims generalizing position stride with
  | nil => simp [productStrides, offsetOf, Nat.mod_one]
  | cons dim dims ih =>
    have hdim : max 1 dim = dim := Nat.max_eq_right (h dim (by simp))
    rw [productStrides, List.zip_cons_cons, offsetOf, hdim,
      ih fun d hd => h d (by simp [hd]), List.prod_cons, Nat.mod_mul, Nat.add_mul]
    congr 1
    ac_rfl

/-- The place of the element at a row-major position in column-major order. -/
def columnIndex : List Nat → Nat → Nat
  | [], _ => 0
  | dim :: dims, position => position / dims.prod % dim + dim * columnIndex dims position

theorem offsetOf_append (position : Nat) (axes more : List (Nat × Nat)) :
    offsetOf position (axes ++ more) =
      offsetOf position axes + offsetOf (position / (axes.map (·.1)).prod) more := by
  induction axes generalizing position with
  | nil => simp [offsetOf]
  | cons axis axes ih =>
    obtain ⟨dim, stride⟩ := axis
    rw [List.cons_append, offsetOf, ih, offsetOf, List.map_cons, List.prod_cons,
      Nat.div_div_eq_div_mul, Nat.add_assoc]

/-- With the strides of the slowest axis first, the offset of a position is its place in column-major order
times the stride of the fastest axis. -/
theorem offsetOf_reverse {dims : List Nat} (h : ∀ d ∈ dims, 0 < d) (position stride : Nat) :
    offsetOf position (dims.zip (productStrides stride dims)).reverse =
      columnIndex dims position * stride := by
  induction dims generalizing stride with
  | nil => simp [productStrides, offsetOf, columnIndex]
  | cons dim dims ih =>
    have hdim : max 1 dim = dim := Nat.max_eq_right (h dim (by simp))
    have hpassed : ((dims.zip (productStrides (stride * dim) dims)).reverse.map (·.1)).prod =
        dims.prod := by
      rw [List.map_reverse, List.map_fst_zip (by simp), List.prod_reverse]
    rw [productStrides, hdim, List.zip_cons_cons, List.reverse_cons, offsetOf_append, hpassed,
      ih fun d hd => h d (by simp [hd]), offsetOf, offsetOf, columnIndex, Nat.add_mul, Nat.add_zero,
      Nat.add_comm]
    congr 1
    ac_rfl

/-- A place in column-major order depends on the position up to the number of elements. -/
theorem columnIndex_mod (dims : List Nat) (position : Nat) :
    columnIndex dims (position % dims.prod) = columnIndex dims position := by
  induction dims generalizing position with
  | nil => rfl
  | cons dim dims ih =>
    have hrest : columnIndex dims (position % (dim * dims.prod)) = columnIndex dims position := by
      rw [← ih, Nat.mod_mod_of_dvd _ (Nat.dvd_mul_left _ _), ih]
    rw [columnIndex, List.prod_cons, hrest, Nat.mod_mul_left_div_self, Nat.mod_mod, columnIndex]

theorem columnIndex_lt {dims : List Nat} (h : ∀ d ∈ dims, 0 < d) (position : Nat) :
    columnIndex dims position < dims.prod := by
  induction dims with
  | nil => simp [columnIndex]
  | cons dim dims ih =>
    have hdigit : position / dims.prod % dim < dim := Nat.mod_lt _ (h dim (by simp))
    have hrest := ih fun d hd => h d (by simp [hd])
    rw [columnIndex, List.prod_cons]
    calc position / dims.prod % dim + dim * columnIndex dims position
        < dim + dim * columnIndex dims position := Nat.add_lt_add_right hdigit _
      _ = dim * (columnIndex dims position + 1) := by rw [Nat.mul_add, Nat.mul_one, Nat.add_comm]
      _ ≤ dim * dims.prod := Nat.mul_le_mul_left _ hrest

/-- The digit of the first axis is the remainder of a place, and the place among the other axes the
quotient. -/
theorem columnIndex_cons_inj {dim : Nat} {dims : List Nat} (hdim : 0 < dim) {p q : Nat}
    (h : columnIndex (dim :: dims) p = columnIndex (dim :: dims) q) :
    p / dims.prod % dim = q / dims.prod % dim ∧ columnIndex dims p = columnIndex dims q := by
  have hlow := congrArg (· % dim) h
  have hhigh := congrArg (· / dim) h
  simp only [columnIndex, Nat.add_mul_mod_self_left, Nat.mod_mod] at hlow
  simp only [columnIndex, Nat.add_mul_div_left _ _ hdim, Nat.div_eq_of_lt (Nat.mod_lt _ hdim),
    Nat.zero_add] at hhigh
  exact ⟨hlow, hhigh⟩

theorem columnIndex_injOn {dims : List Nat} (h : ∀ d ∈ dims, 0 < d) :
    Set.InjOn (columnIndex dims) (Set.Iio dims.prod) := by
  induction dims with
  | nil =>
    intro p hp q hq _
    rw [Set.mem_Iio, List.prod_nil, Nat.lt_one_iff] at hp hq
    rw [hp, hq]
  | cons dim dims ih =>
    intro p hp q hq heq
    have hrest : ∀ d ∈ dims, 0 < d := fun d hd => h d (by simp [hd])
    have hdigit : ∀ {r : Nat}, r ∈ Set.Iio (dim :: dims).prod →
        r / dims.prod % dim = r / dims.prod := by
      intro r hr
      rw [Set.mem_Iio, List.prod_cons, Nat.mul_comm] at hr
      exact Nat.mod_eq_of_lt (Nat.div_lt_of_lt_mul hr)
    obtain ⟨hlow, hhigh⟩ := columnIndex_cons_inj (h dim (by simp)) heq
    rw [hdigit hp, hdigit hq] at hlow
    rw [← columnIndex_mod dims p, ← columnIndex_mod dims q] at hhigh
    have hmod := ih hrest (Nat.mod_lt p (prod_pos hrest)) (Nat.mod_lt q (prod_pos hrest)) hhigh
    rw [← Nat.div_add_mod p dims.prod, ← Nat.div_add_mod q dims.prod, hlow, hmod]

theorem columnIndex_surjOn {dims : List Nat} (h : ∀ d ∈ dims, 0 < d) :
    Set.SurjOn (columnIndex dims) (Set.Iio dims.prod) (Set.Iio dims.prod) := by
  induction dims with
  | nil =>
    intro r hr
    rw [Set.mem_Iio, List.prod_nil, Nat.lt_one_iff] at hr
    exact ⟨0, by simp, hr.symm⟩
  | cons dim dims ih =>
    intro r hr
    have hrest : ∀ d ∈ dims, 0 < d := fun d hd => h d (by simp [hd])
    rw [Set.mem_Iio, List.prod_cons] at hr
    obtain ⟨p, hp, hplace⟩ := ih hrest (Set.mem_Iio.2 (Nat.div_lt_of_lt_mul hr))
    have hdigit : r % dim < dim := Nat.mod_lt _ (h dim (by simp))
    refine ⟨dims.prod * (r % dim) + p, ?_, ?_⟩
    · rw [Set.mem_Iio, List.prod_cons]
      calc dims.prod * (r % dim) + p < dims.prod * (r % dim) + dims.prod := Nat.add_lt_add_left hp _
        _ = dims.prod * (r % dim + 1) := by rw [Nat.mul_add, Nat.mul_one]
        _ ≤ dims.prod * dim := Nat.mul_le_mul_left _ hdigit
        _ = dim * dims.prod := Nat.mul_comm _ _
    · rw [columnIndex, Nat.mul_add_div (prod_pos hrest), Nat.div_eq_of_lt hp, Nat.add_zero,
        Nat.mod_eq_of_lt hdigit, ← columnIndex_mod, Nat.mul_add_mod, columnIndex_mod, hplace,
        Nat.mod_add_div]

/-- The place of the element at a position among the elements in storage. -/
def storageIndex (layout : Layout) (dims : List Nat) (position : Nat) : Nat :=
  match layout with
  | .rowMajor => position % dims.prod
  | .columnMajor => columnIndex dims position

theorem storageIndex_lt {dims : List Nat} (h : ∀ d ∈ dims, 0 < d) (layout : Layout) (position : Nat) :
    storageIndex layout dims position < dims.prod := by
  cases layout with
  | rowMajor => exact Nat.mod_lt _ (prod_pos h)
  | columnMajor => exact columnIndex_lt h position

/-- **Every dense layout has each element at a place of its own,** and no place is left over. -/
theorem storageIndex_bijOn {dims : List Nat} (h : ∀ d ∈ dims, 0 < d) (layout : Layout) :
    Set.BijOn (storageIndex layout dims) (Set.Iio dims.prod) (Set.Iio dims.prod) := by
  cases layout with
  | rowMajor => exact (Set.bijOn_id _).congr fun p hp => (Nat.mod_eq_of_lt hp).symm
  | columnMajor =>
    exact ⟨fun p _ => columnIndex_lt h p, columnIndex_injOn h, columnIndex_surjOn h⟩

/-- The axes of a dense layout from the last one on, with their strides. -/
def denseAxes (layout : Layout) (size : Nat) (dims : List Nat) : List (Nat × Nat) :=
  match layout with
  | .rowMajor => dims.reverse.zip (productStrides size dims.reverse)
  | .columnMajor => (dims.zip (productStrides size dims)).reverse

/-- The offset of a position in a dense layout is its place in storage times the size of an element. -/
theorem offsetOf_denseAxes {dims : List Nat} (h : ∀ d ∈ dims, 0 < d) (layout : Layout)
    (position size : Nat) :
    offsetOf position (denseAxes layout size dims) = storageIndex layout dims position * size := by
  cases layout with
  | rowMajor =>
    rw [denseAxes, offsetOf_productStrides fun d hd => h d (List.mem_reverse.1 hd), List.prod_reverse,
      storageIndex]
  | columnMajor => rw [denseAxes, offsetOf_reverse h, storageIndex]

theorem le_of_mem_productStrides {dims : List Nat} (h : ∀ d ∈ dims, 0 < d) {stride s : Nat}
    (hs : s ∈ productStrides stride dims) : s ≤ dims.prod * stride := by
  induction dims generalizing stride with
  | nil => simp [productStrides] at hs
  | cons dim dims ih =>
    have hdim : max 1 dim = dim := Nat.max_eq_right (h dim (by simp))
    rw [productStrides, hdim, List.mem_cons] at hs
    rcases hs with rfl | hs
    · exact Nat.le_mul_of_pos_left _ (prod_pos h)
    · calc s ≤ dims.prod * (stride * dim) := ih (fun d hd => h d (by simp [hd])) hs
        _ = (dim :: dims).prod * stride := by rw [List.prod_cons]; ac_rfl

/-- The axes have the extents of the shape, and no stride is beyond the bytes of all elements. -/
theorem of_mem_denseAxes {dims : List Nat} (h : ∀ d ∈ dims, 0 < d) {layout : Layout} {size : Nat}
    {a : Nat × Nat} (ha : a ∈ denseAxes layout size dims) : a.1 ∈ dims ∧ a.2 ≤ dims.prod * size := by
  cases layout with
  | rowMajor =>
    obtain ⟨hdim, hstride⟩ := List.of_mem_zip ha
    have hle := le_of_mem_productStrides (fun d hd => h d (List.mem_reverse.1 hd)) hstride
    rw [List.prod_reverse] at hle
    exact ⟨List.mem_reverse.1 hdim, hle⟩
  | columnMajor =>
    obtain ⟨hdim, hstride⟩ := List.of_mem_zip (List.mem_reverse.1 ha)
    exact ⟨hdim, le_of_mem_productStrides h hstride⟩

/-! ## Words of 64 bits -/

/-- A product of words that fits in a signed word is not cut off. -/
theorem saturatingMul_ofNat {a b : Nat} (ha : a < 2 ^ 63) (hb : b < 2 ^ 63) (h : a * b < 2 ^ 63) :
    saturatingMul (Int64.ofNat a) (Int64.ofNat b) = Int64.ofNat (a * b) := by
  have hlt : (Int64.ofNat a).toInt * (Int64.ofNat b).toInt < (signedLimit : Int) := by
    rw [Int64.toInt_ofNat_of_lt ha, Int64.toInt_ofNat_of_lt hb]
    exact_mod_cast h
  rw [saturatingMul, if_pos hlt, Int64.ofNat_mul]

/-- If the bytes of all elements fit in a signed word, so do the stride and the extent of the first axis,
their product, and the bytes over the other axes. -/
theorem product_fits {dim stride : Nat} {dims : List Nat} (hstride : 0 < stride)
    (hdims : ∀ d ∈ dim :: dims, 0 < d) (h : (dim :: dims).prod * stride < 2 ^ 63) :
    stride < 2 ^ 63 ∧ dim < 2 ^ 63 ∧ stride * dim < 2 ^ 63 ∧ dims.prod * (stride * dim) < 2 ^ 63 := by
  have hdim : 0 < dim := hdims dim (by simp)
  have hprod : 0 < dims.prod := prod_pos fun d hd => hdims d (by simp [hd])
  have hall : dims.prod * (stride * dim) < 2 ^ 63 := by
    rw [List.prod_cons] at h
    calc dims.prod * (stride * dim) = dim * dims.prod * stride := by ac_rfl
      _ < 2 ^ 63 := h
  have hmul : stride * dim < 2 ^ 63 := Nat.lt_of_le_of_lt (Nat.le_mul_of_pos_left _ hprod) hall
  exact ⟨Nat.lt_of_le_of_lt (Nat.le_mul_of_pos_right _ hdim) hmul,
    Nat.lt_of_le_of_lt (Nat.le_mul_of_pos_left _ hstride) hmul, hmul, hall⟩

/-- Strides that fit in words are the products of the extents passed so far. -/
theorem stridesFrom_eq {dims : List Nat} {stride : Nat} (hstride : 0 < stride)
    (hdims : ∀ d ∈ dims, 0 < d) (h : dims.prod * stride < 2 ^ 63) :
    stridesFrom (Int64.ofNat stride) dims = (productStrides stride dims).map Int64.ofNat := by
  induction dims generalizing stride with
  | nil => rfl
  | cons dim dims ih =>
    have hdim : 0 < dim := hdims dim (by simp)
    have hmax : max 1 dim = dim := Nat.max_eq_right hdim
    obtain ⟨hs, hd, hmul, hall⟩ := product_fits hstride hdims h
    rw [stridesFrom, productStrides, strideExtent, hmax, saturatingMul_ofNat hs hd hmul,
      ih (Nat.mul_pos hstride hdim) (fun d hd => hdims d (by simp [hd])) hall, List.map_cons]

/-- Axes with their strides as words. -/
def wordAxes (axes : List (Nat × Nat)) : List (Nat × Int64) :=
  axes.map fun (dim, stride) => (dim, Int64.ofNat stride)

/-- The offset of a position in words. -/
theorem offsetFrom_eq {axes : List (Nat × Nat)} (h : ∀ a ∈ axes, 0 < a.1) (position : Nat)
    (offset : Int64) :
    offsetFrom position offset (wordAxes axes) = offset + Int64.ofNat (offsetOf position axes) := by
  induction axes generalizing position offset with
  | nil => simp [wordAxes, offsetFrom, offsetOf]
  | cons axis axes ih =>
    obtain ⟨dim, stride⟩ := axis
    have hdim : dim ≠ 0 := Nat.pos_iff_ne_zero.1 (h (dim, stride) (by simp))
    have hrest : ∀ a ∈ axes, 0 < a.1 := fun a ha => h a (by simp [ha])
    have hstep : offsetFrom position offset (wordAxes ((dim, stride) :: axes)) =
        offsetFrom (position / dim) (offset + Int64.ofNat (position % dim) * Int64.ofNat stride)
          (wordAxes axes) := by
      simp [wordAxes, offsetFrom, hdim]
    rw [hstep, ih hrest, offsetOf, Int64.ofNat_add, Int64.ofNat_mul, Int64.add_assoc]

end OpFusion.Buffer

namespace OpFusion.Strided

open Buffer (offsetOf wordAxes)

/-- Generated code finds the same offset as the buffer itself, over axes that are not empty. -/
theorem offsetFrom_eq {axes : List (Nat × Int64)} (hpos : ∀ a ∈ axes, 0 < a.1)
    (hlt : ∀ a ∈ axes, a.1 < 2 ^ 63) {position : Nat} (hp : position < 2 ^ 63) (offset : Int64) :
    offsetFrom (Int64.ofNat position) offset (axes.map (Prod.map Int64.ofNat id)) =
      Buffer.offsetFrom position offset axes := by
  induction axes generalizing position offset with
  | nil => rfl
  | cons axis axes ih =>
    obtain ⟨dim, stride⟩ := axis
    have hdim : 0 < dim := hpos (dim, stride) (by simp)
    have hword : dim < 2 ^ 63 := hlt (dim, stride) (by simp)
    have hext : (0 : Int64) < Int64.ofNat dim :=
      (Int64.ofNat_lt_iff_lt (a := 0) (by decide) hword).2 hdim
    have hquot : position / dim < 2 ^ 63 := Nat.lt_of_le_of_lt (Nat.div_le_self _ _) hp
    rw [List.map_cons, Prod.map_apply, id, offsetFrom, if_pos hext, ← Int64.ofNat_div hp hword,
      ← Int64.ofNat_mod hp hword,
      ih (fun a ha => hpos a (by simp [ha])) (fun a ha => hlt a (by simp [ha])) hquot,
      Buffer.offsetFrom, if_neg (Nat.pos_iff_ne_zero.1 hdim)]

end OpFusion.Strided
