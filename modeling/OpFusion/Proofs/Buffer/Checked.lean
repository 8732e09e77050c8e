/-
  Loops over the axes of a buffer, with every step checked.

  A sum or a product of signed words that does not fit wraps around, or stops at a bound. Here the loops
  for strides, offsets and counts are written once more with steps that have no value then. If a buffer has
  elements, no step of them fails, and they give what the loops without checks give
  (`checkedStrides_eq`, `checkedByteOffset_eq`, `Strided.checkedOffset_eq`). Without elements the count of
  generated code can fail: `Strided.checkedCount_iff` says when.
-/
import OpFusion.Proofs.Buffer.Dense

namespace OpFusion

/-! ## Checked steps -/

namespace Checked

/-- A number as a signed word, if it is one. -/
def word? (n : Int) : Option Int64 :=
  if -2 ^ 63 ≤ n ∧ n < 2 ^ 63 then some (Int64.ofInt n) else none

/-- A sum of signed words, if it fits. -/
def add? (a b : Int64) : Option Int64 := word? (a.toInt + b.toInt)

/-- A product of signed words, if it fits. -/
def mul? (a b : Int64) : Option Int64 := word? (a.toInt * b.toInt)

theorem word?_of_lt {n : Nat} (h : n < 2 ^ 63) : word? n = some (Int64.ofNat n) := by
  rw [word?, if_pos ⟨by omega, by omega⟩, Int64.ofInt_eq_ofNat]

theorem word?_of_le {n : Nat} (h : 2 ^ 63 ≤ n) : word? n = none := by
  rw [word?, if_neg (by omega)]

theorem add?_ofNat {a b : Nat} (ha : a < 2 ^ 63) (hb : b < 2 ^ 63) :
    add? (Int64.ofNat a) (Int64.ofNat b) = word? (a + b : Nat) := by
  rw [add?, Int64.toInt_ofNat_of_lt ha, Int64.toInt_ofNat_of_lt hb, Int.natCast_add]

theorem mul?_ofNat {a b : Nat} (ha : a < 2 ^ 63) (hb : b < 2 ^ 63) :
    mul? (Int64.ofNat a) (Int64.ofNat b) = word? (a * b : Nat) := by
  rw [mul?, Int64.toInt_ofNat_of_lt ha, Int64.toInt_ofNat_of_lt hb, Int.natCast_mul]

end Checked

open Checked

namespace Buffer

variable {memory : Memory}

/-! ## Strides -/

/-- Strides from the fastest axis on, if no product is too large. -/
def checkedStridesFrom (stride : Int64) : List Nat → Option (List Int64)
  | [] => some []
  | dim :: dims => do
    let next ← mul? stride (strideExtent dim)
    let rest ← checkedStridesFrom next dims
    return stride :: rest

/-- The strides of a dense layout, if no product is too large. -/
def checkedStrides (layout : Layout) (size : Nat) (dims : List Nat) : Option (List Int64) :=
  match layout with
  | .rowMajor => (checkedStridesFrom (Int64.ofNat size) dims.reverse).map List.reverse
  | .columnMajor => checkedStridesFrom (Int64.ofNat size) dims

theorem checkedStridesFrom_eq {dims : List Nat} {stride : Nat} (hstride : 0 < stride)
    (hdims : ∀ d ∈ dims, 0 < d) (h : dims.prod * stride < 2 ^ 63) :
    checkedStridesFrom (Int64.ofNat stride) dims = some (stridesFrom (Int64.ofNat stride) dims) := by
  induction dims generalizing stride with
  | nil => rfl
  | cons dim dims ih =>
    have hdim : 0 < dim := hdims dim (by simp)
    have hmax : max 1 dim = dim := Nat.max_eq_right hdim
    obtain ⟨hs, hd, hmul, hall⟩ := product_fits hstride hdims h
    have hrest := ih (Nat.mul_pos hstride hdim) (fun d hd => hdims d (by simp [hd])) hall
    rw [checkedStridesFrom, stridesFrom, strideExtent, hmax, mul?_ofNat hs hd, word?_of_lt hmul,
      saturatingMul_ofNat hs hd hmul, Option.bind_eq_bind, Option.bind_some, hrest]
    rfl

/-- **No stride of a shape with elements is too large.** -/
theorem checkedStrides_eq {dtype : DType} {dims : List Nat} (h : Sound dtype dims memory)
    (hpos : ∀ d ∈ dims, 0 < d) (layout : Layout) :
    checkedStrides layout dtype.size dims = some (denseStrides layout dtype.size dims) := by
  cases layout with
  | rowMajor =>
    rw [checkedStrides, denseStrides, checkedStridesFrom_eq dtype.size_pos, Option.map_some]
    · exact fun d hd => hpos d (List.mem_reverse.1 hd)
    · rw [List.prod_reverse]
      exact h.byteLength_lt
  | columnMajor =>
    rw [checkedStrides, denseStrides, checkedStridesFrom_eq dtype.size_pos hpos h.byteLength_lt]

/-! ## Offsets -/

/-- The offset of a position, over the axes from the last one on, if no step is too large. -/
def checkedOffsetFrom (position : Nat) (offset : Int64) : List (Nat × Int64) → Option Int64
  | [] => some offset
  | (dim, stride) :: axes =>
    if dim = 0 then some 0
    else do
      let digit ← word? (position % dim : Nat)
      let term ← mul? digit stride
      let next ← add? offset term
      checkedOffsetFrom (position / dim) next axes

/-- The byte at which the element at a logical position starts, if no step is too large. -/
def checkedByteOffset (b : Buffer) (position : Nat) : Option Nat :=
  (checkedOffsetFrom position 0 (b.dims.zip b.strides).reverse).bind (·.toInt.toNat?)

theorem checkedOffsetFrom_eq {axes : List (Nat × Nat)}
    (h : ∀ a ∈ axes, 0 < a.1 ∧ a.1 < 2 ^ 63 ∧ a.2 < 2 ^ 63) {position offset : Nat}
    (hfits : offset + offsetOf position axes < 2 ^ 63) :
    checkedOffsetFrom position (Int64.ofNat offset) (wordAxes axes) =
      some (Int64.ofNat (offset + offsetOf position axes)) := by
  induction axes generalizing position offset with
  | nil => rfl
  | cons axis axes ih =>
    obtain ⟨dim, stride⟩ := axis
    obtain ⟨hdim, hword, hstride⟩ := h (dim, stride) (by simp)
    have hdigit : position % dim < 2 ^ 63 := Nat.lt_trans (Nat.mod_lt _ hdim) hword
    have hterm : position % dim * stride < 2 ^ 63 := by
      rw [offsetOf] at hfits
      omega
    have hnext : offset + position % dim * stride + offsetOf (position / dim) axes < 2 ^ 63 := by
      rw [offsetOf] at hfits
      omega
    have hrest := ih (fun a ha => h a (by simp [ha])) hnext
    have hstep : checkedOffsetFrom position (Int64.ofNat offset) (wordAxes ((dim, stride) :: axes)) =
        checkedOffsetFrom (position / dim) (Int64.ofNat (offset + position % dim * stride))
          (wordAxes axes) := by
      rw [wordAxes, List.map_cons, ← wordAxes, checkedOffsetFrom, if_neg (Nat.pos_iff_ne_zero.1 hdim),
        word?_of_lt hdigit, Option.bind_eq_bind, Option.bind_some, mul?_ofNat hdigit hstride,
        word?_of_lt hterm, Option.bind_some, add?_ofNat (by omega) hterm, word?_of_lt (by omega),
        Option.bind_some]
    rw [hstep, hrest, offsetOf, Nat.add_assoc]

/-- No step on the way to the offset of an element is too large. -/
theorem WellFormed.checkedOffsetFrom_eq {b : Buffer} (h : b.WellFormed memory) {position : Nat}
    (hp : position < b.length) :
    checkedOffsetFrom position 0 (b.dims.zip b.strides).reverse =
      some (Int64.ofNat (b.byteOffset position)) := by
  obtain ⟨layout, hlayout⟩ := h.strides
  have hpos : ∀ d ∈ b.dims, 0 < d := pos_of_prod_ne_zero (by rw [← length_eq]; omega)
  have hplace : offsetOf position (denseAxes layout b.dtype.size b.dims) = b.byteOffset position := by
    rw [offsetOf_denseAxes hpos, h.byteOffset_eq hlayout hp]
  have hfits : 0 + offsetOf position (denseAxes layout b.dtype.size b.dims) < 2 ^ 63 := by
    rw [Nat.zero_add, hplace]
    exact h.byteOffset_lt hp
  have haxes : ∀ a ∈ denseAxes layout b.dtype.size b.dims, 0 < a.1 ∧ a.1 < 2 ^ 63 ∧ a.2 < 2 ^ 63 := by
    intro a ha
    obtain ⟨hdim, hstride⟩ := of_mem_denseAxes hpos ha
    exact ⟨hpos a.1 hdim, h.sound.extents a.1 hdim, Nat.lt_of_le_of_lt hstride h.sound.byteLength_lt⟩
  rw [hlayout, axes_eq h.sound hpos]
  exact (Buffer.checkedOffsetFrom_eq haxes hfits).trans (by rw [Nat.zero_add, hplace])

/-- **No offset of an element is too large.** -/
theorem WellFormed.checkedByteOffset_eq {b : Buffer} (h : b.WellFormed memory) {position : Nat}
    (hp : position < b.length) : b.checkedByteOffset position = some (b.byteOffset position) := by
  rw [checkedByteOffset, h.checkedOffsetFrom_eq hp, Option.bind_some,
    Int64.toInt_ofNat_of_lt (h.byteOffset_lt hp)]
  rfl

end Buffer

/-! ## Generated code -/

namespace Strided

open Buffer (Memory length_eq pos_of_prod_ne_zero prod_pos)

variable {b : Buffer} {memory : Memory}

/-- The byte offset of a row-major position, over the axes from the last one on, if no step is too
large. -/
def checkedOffsetFrom (linear offset : Int64) : List (Int64 × Int64) → Option Int64
  | [] => some offset
  | (extent, stride) :: axes =>
    if 0 < extent then do
      let term ← mul? (linear % extent) stride
      let next ← add? offset term
      checkedOffsetFrom (linear / extent) next axes
    else checkedOffsetFrom linear offset axes

/-- Generated code takes the same steps as the buffer itself, over axes that are not empty. -/
theorem checkedOffsetFrom_eq {axes : List (Nat × Int64)} (hpos : ∀ a ∈ axes, 0 < a.1)
    (hlt : ∀ a ∈ axes, a.1 < 2 ^ 63) {position : Nat} (hp : position < 2 ^ 63) (offset : Int64) :
    checkedOffsetFrom (Int64.ofNat position) offset (axes.map (Prod.map Int64.ofNat id)) =
      Buffer.checkedOffsetFrom position offset axes := by
  induction axes generalizing position offset with
  | nil => rfl
  | cons axis axes ih =>
    obtain ⟨dim, stride⟩ := axis
    have hdim : 0 < dim := hpos (dim, stride) (by simp)
    have hword : dim < 2 ^ 63 := hlt (dim, stride) (by simp)
    have hext : (0 : Int64) < Int64.ofNat dim :=
      (Int64.ofNat_lt_iff_lt (a := 0) (by decide) hword).2 hdim
    have hdigit : position % dim < 2 ^ 63 := Nat.lt_trans (Nat.mod_lt _ hdim) hword
    have hquot : position / dim < 2 ^ 63 := Nat.lt_of_le_of_lt (Nat.div_le_self _ _) hp
    rw [List.map_cons, Prod.map_apply, id, checkedOffsetFrom, if_pos hext, ← Int64.ofNat_div hp hword,
      ← Int64.ofNat_mod hp hword, Buffer.checkedOffsetFrom, if_neg (Nat.pos_iff_ne_zero.1 hdim),
      word?_of_lt hdigit, Option.bind_eq_bind, Option.bind_some]
    refine Option.bind_congr fun term _ => Option.bind_congr fun next _ => ?_
    exact ih (fun a ha => hpos a (by simp [ha])) (fun a ha => hlt a (by simp [ha])) hquot next

/-- The number of elements, if no product of extents from the left is too large. -/
def checkedCount (b : Buffer) : Option Int64 := (dims b).foldlM mul? 1

/-- No product of extents from the left is more than a signed word counts. -/
def ProductsFit (dims : List Nat) : Prop := ∀ k, (dims.take k).prod ≤ 2 ^ 63 - 1

/-- The extents before the first empty axis. -/
def leading (dims : List Nat) : List Nat := dims.takeWhile (0 < ·)

theorem leading_pos (dims : List Nat) : 0 < (leading dims).prod :=
  prod_pos fun d hd => by simpa using List.mem_takeWhile_imp hd

theorem prod_leading_cons {dim : Nat} (h : 0 < dim) (dims : List Nat) :
    (leading (dim :: dims)).prod = dim * (leading dims).prod := by
  rw [leading, List.takeWhile_cons_of_pos (by simpa using h), List.prod_cons, ← leading]

theorem take_prod_le (dims : List Nat) (k : Nat) : (dims.take k).prod ≤ (leading dims).prod := by
  induction dims generalizing k with
  | nil => simp [leading]
  | cons dim dims ih =>
    cases k with
    | zero => exact leading_pos (dim :: dims)
    | succ k =>
      rw [List.take_succ_cons, List.prod_cons]
      by_cases hdim : 0 < dim
      · rw [prod_leading_cons hdim]
        exact Nat.mul_le_mul_left _ (ih k)
      · rw [Nat.eq_zero_of_not_pos hdim, Nat.zero_mul]
        exact Nat.zero_le _

/-- All products from the left fit if and only if that of the extents before the first empty axis does. -/
theorem productsFit_iff (dims : List Nat) : ProductsFit dims ↔ (leading dims).prod < 2 ^ 63 := by
  constructor
  · intro h
    have hprefix := List.prefix_iff_eq_take.1 (List.takeWhile_prefix (l := dims) fun d => decide (0 < d))
    have hle := h (leading dims).length
    rw [leading, ← hprefix, ← leading] at hle
    omega
  · intro h k
    have hle := take_prod_le dims k
    omega

theorem foldlM_mul?_zero {dims : List Nat} (hdims : ∀ d ∈ dims, d < 2 ^ 63) :
    (dims.map Int64.ofNat).foldlM mul? (Int64.ofNat 0) = some (Int64.ofNat 0) := by
  induction dims with
  | nil => rfl
  | cons dim dims ih =>
    rw [List.map_cons, List.foldlM_cons, mul?_ofNat (by decide) (hdims dim (by simp)), Nat.zero_mul,
      word?_of_lt (by decide), Option.bind_eq_bind, Option.bind_some]
    exact ih fun d hd => hdims d (by simp [hd])

/-- The products from the left, starting with a number that is not zero. -/
theorem foldlM_mul? {dims : List Nat} (hdims : ∀ d ∈ dims, d < 2 ^ 63) {acc : Nat} (hacc : 0 < acc)
    (hlt : acc < 2 ^ 63) :
    (dims.map Int64.ofNat).foldlM mul? (Int64.ofNat acc) =
      if acc * (leading dims).prod < 2 ^ 63 then some (Int64.ofNat (acc * dims.prod)) else none := by
  induction dims generalizing acc with
  | nil => simpa [leading] using hlt
  | cons dim dims ih =>
    have hrest : ∀ d ∈ dims, d < 2 ^ 63 := fun d hd => hdims d (by simp [hd])
    rw [List.map_cons, List.foldlM_cons, mul?_ofNat hlt (hdims dim (by simp))]
    by_cases hdim : 0 < dim
    · rw [prod_leading_cons hdim, List.prod_cons, ← Nat.mul_assoc, ← Nat.mul_assoc]
      by_cases hfits : acc * dim < 2 ^ 63
      · rw [word?_of_lt hfits, Option.bind_eq_bind, Option.bind_some]
        exact ih hrest (Nat.mul_pos hacc hdim) hfits
      · -- the products before the first empty axis never fall
        have hlarge : ¬ acc * dim * (leading dims).prod < 2 ^ 63 := fun h =>
          hfits (Nat.lt_of_le_of_lt (Nat.le_mul_of_pos_right _ (leading_pos dims)) h)
        rw [word?_of_le (Nat.le_of_not_lt hfits), if_neg hlarge]
        rfl
    · obtain rfl : dim = 0 := Nat.eq_zero_of_not_pos hdim
      have hleading : leading (0 :: dims) = [] := rfl
      rw [hleading, List.prod_nil, Nat.mul_one, if_pos hlt, Nat.mul_zero, List.prod_cons, Nat.zero_mul,
        Nat.mul_zero, word?_of_lt (by decide), Option.bind_eq_bind, Option.bind_some]
      exact foldlM_mul?_zero hrest

theorem checkedCount_eq (h : b.WellFormed memory) :
    checkedCount b = if (leading b.dims).prod < 2 ^ 63 then some (count b) else none := by
  have hcount : count b = Int64.ofNat b.dims.prod := by
    rw [← length_eq]
    exact foldl_ofNat b.dims 1
  have hfold := foldlM_mul? h.sound.extents Nat.one_pos (by decide : 1 < 2 ^ 63)
  rw [Nat.one_mul, Nat.one_mul] at hfold
  rw [hcount]
  exact hfold

/-- If there are elements, no product is too large. -/
theorem productsFit_of_length (h : b.WellFormed memory) (hlength : b.length ≠ 0) : ProductsFit b.dims := by
  rw [length_eq] at hlength
  have hall : leading b.dims = b.dims :=
    List.takeWhile_eq_self_iff.2 fun d hd => by simpa using pos_of_prod_ne_zero hlength d hd
  rw [productsFit_iff, hall]
  exact h.sound.prod_lt

/-- **When generated code counts elements without overflow.** For every shape that can be allocated, the
products from the left all fit in a signed word if and only if that of the extents before the first empty
axis does; the count of generated code takes no step that is too large if and only if they fit. This is so
if the buffer has elements. What it counts is the number of elements even if a step wraps around. -/
theorem checkedCount_iff (dtype : DType) (dims : List Nat) (layout : Layout) (memory : Memory)
    (b : Buffer) (h : Buffer.allocate dtype dims layout memory = .ok b) :
    (ProductsFit dims ↔ (leading dims).prod < 2 ^ 63) ∧
    (checkedCount b = some (count b) ↔ ProductsFit dims) ∧
    (checkedCount b = none ↔ ¬ ProductsFit dims) ∧
    (b.length ≠ 0 → ProductsFit dims) ∧
    (count b).toInt = b.length := by
  have hb := Buffer.wellFormed_allocate h
  have hdims : b.dims = dims := by
    obtain ⟨-, rfl⟩ := Buffer.allocate_eq_ok.1 h
    rfl
  have hchecked := checkedCount_eq hb
  refine ⟨productsFit_iff dims, ?_, ?_, hdims ▸ productsFit_of_length hb, toInt_count hb⟩
  · rw [hchecked, productsFit_iff, hdims]
    split <;> simp_all
  · rw [hchecked, productsFit_iff, hdims]
    split <;> simp_all

/-- An empty axis after large ones, whose product still fits. -/
theorem checkedCount_spare :
    ∃ b, Buffer.allocate .f64 [2 ^ 31, 2 ^ 31, 0, 7] .columnMajor = .ok b ∧
      ProductsFit [2 ^ 31, 2 ^ 31, 0, 7] ∧ checkedCount b = some (count b) ∧ (count b).toInt = 0 := by
  obtain ⟨hfits, hchecked, -, -, hcount⟩ :=
    checkedCount_iff .f64 [2 ^ 31, 2 ^ 31, 0, 7] .columnMajor .usual _ rfl
  have hleading : (leading [2 ^ 31, 2 ^ 31, 0, 7]).prod < 2 ^ 63 := by decide
  exact ⟨_, rfl, hfits.2 hleading, hchecked.2 (hfits.2 hleading), hcount⟩

/-- An empty axis after large ones, whose product does not fit: the buffer is made, and its count
overflows. -/
theorem checkedCount_overflow :
    ∃ b, Buffer.zeros .u8 [2 ^ 62, 2, 0] = .ok b ∧ ([2 ^ 62, 2, 0].take 2).prod = 2 ^ 63 ∧
      ¬ ProductsFit b.dims ∧ checkedCount b = none := by
  refine ⟨_, rfl, rfl, fun h => ?_, rfl⟩
  exact absurd (h 2) (by decide)

end Strided

end OpFusion
