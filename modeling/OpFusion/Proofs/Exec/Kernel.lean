/-
  Kernels compute what the reference says.

  First for elements: operations on machine integers are exact operations that wrap (`apply_eq_value`),
  a division fails where there is no quotient or it does not fit (`elementwise_eq`), and sums are exact
  sums that wrap (`total_eq_sum`). Then for arrays: on well-formed operands of any layout a kernel
  writes the elements of its tensor, or fails as the reference does (`Kernel.compute_eq`).
-/
import OpFusion.Proofs.Buffer.Dense
import OpFusion.Proofs.Exec.Reference

namespace OpFusion

/-! ## Integers as elements -/

namespace Element

variable {d : DType}

theorem toNat_ofInt (n : Int) : (UInt8.ofInt n).toNat = (n % 256).toNat := by
  rw [UInt8.ofInt, UInt8.toNat_ofNat']
  omega

theorem ofInt_natCast (n : Nat) : UInt8.ofInt n = UInt8.ofNat n := by
  apply UInt8.toNat.inj
  rw [toNat_ofInt, UInt8.toNat_ofNat']
  omega

/-- An integer element is read back from its integer. -/
theorem ofInt_toInt (h : d.isFloat = false) (x : d.Elem) : ofInt d (toInt d x) = x := by
  cases d with
  | f32 => cases h
  | f64 => cases h
  | i32 => exact Int32.ofInt_toInt x
  | i64 => exact Int64.ofInt_toInt x
  | u8 => exact (ofInt_natCast _).trans UInt8.ofNat_toNat

theorem ofInt_add (h : d.isFloat = false) (m n : Int) :
    ofInt d (m + n) = add d (ofInt d m) (ofInt d n) := by
  cases d with
  | f32 => cases h
  | f64 => cases h
  | i32 => exact Int32.ofInt_add m n
  | i64 => exact Int64.ofInt_add m n
  | u8 => exact UInt8.ofInt_add m n

theorem ofInt_sub (h : d.isFloat = false) (m n : Int) :
    ofInt d (m - n) = sub d (ofInt d m) (ofInt d n) := by
  cases d with
  | f32 => cases h
  | f64 => cases h
  | i32 => exact Int32.ofInt_sub m n
  | i64 => exact Int64.ofInt_sub m n
  | u8 =>
    apply UInt8.toNat.inj
    refine (toNat_ofInt _).trans (Eq.trans ?_ (UInt8.toNat_sub (UInt8.ofInt m) (UInt8.ofInt n)).symm)
    rw [toNat_ofInt, toNat_ofInt]
    omega

theorem ofInt_mul (h : d.isFloat = false) (m n : Int) :
    ofInt d (m * n) = mul d (ofInt d m) (ofInt d n) := by
  cases d with
  | f32 => cases h
  | f64 => cases h
  | i32 => exact Int32.ofInt_mul m n
  | i64 => exact Int64.ofInt_mul m n
  | u8 => exact UInt8.ofInt_mul m n

theorem ofInt_tdiv (h : d.isFloat = false) (x y : d.Elem) :
    ofInt d ((toInt d x).tdiv (toInt d y)) = div d x y := by
  cases d with
  | f32 => cases h
  | f64 => cases h
  | i32 => exact (Int32.ofInt_eq_iff_bmod_eq_toInt _ _).2 (Int32.toInt_div x y).symm
  | i64 => exact (Int64.ofInt_eq_iff_bmod_eq_toInt _ _).2 (Int64.toInt_div x y).symm
  | u8 =>
    have hdiv : (((UInt8.toNat x : Nat) : Int)).tdiv ((UInt8.toNat y : Nat) : Int) =
        ((UInt8.toNat x / UInt8.toNat y : Nat) : Int) := (Int.ofNat_tdiv _ _).symm
    refine (congrArg UInt8.ofInt hdiv).trans ((ofInt_natCast _).trans ?_)
    apply UInt8.toNat.inj
    rw [UInt8.toNat_ofNat']
    exact (Nat.mod_eq_of_lt (Nat.lt_of_le_of_lt (Nat.div_le_self _ _) (UInt8.toNat_lt x)))

theorem less_iff (h : d.isFloat = false) (x y : d.Elem) :
    less d x y = true ↔ toInt d x < toInt d y := by
  cases d with
  | f32 => cases h
  | f64 => cases h
  | i32 => exact decide_eq_true_iff
  | i64 => exact decide_eq_true_iff
  | u8 => exact decide_eq_true_iff.trans Int.ofNat_lt.symm

end Element

namespace Reference

open Element

variable {d : DType}

/-- Machine operations on integers are exact operations that wrap. -/
theorem apply_eq_value (op : BinaryOp) (x y : d.Elem) : op.apply d x y = value op d x y := by
  by_cases h : d.isFloat = true
  · simp [value, h]
  · have hint : d.isFloat = false := by simpa using h
    simp only [value, h, Bool.false_eq_true, if_false]
    cases op with
    | add => rw [BinaryOp.onInts, ofInt_add hint, ofInt_toInt hint, ofInt_toInt hint, BinaryOp.apply]
    | sub => rw [BinaryOp.onInts, ofInt_sub hint, ofInt_toInt hint, ofInt_toInt hint, BinaryOp.apply]
    | mul => rw [BinaryOp.onInts, ofInt_mul hint, ofInt_toInt hint, ofInt_toInt hint, BinaryOp.apply]
    | div => rw [BinaryOp.onInts, ofInt_tdiv hint, BinaryOp.apply]
    | max =>
      rw [BinaryOp.onInts, BinaryOp.apply]
      by_cases hlt : toInt d y < toInt d x
      · rw [if_pos ((less_iff hint y x).2 hlt), Int.max_eq_left (Int.le_of_lt hlt), ofInt_toInt hint]
      · rw [if_neg (mt (less_iff hint y x).1 hlt), Int.max_eq_right (Int.not_lt.1 hlt),
          ofInt_toInt hint]
    | min =>
      rw [BinaryOp.onInts, BinaryOp.apply]
      by_cases hlt : toInt d x < toInt d y
      · rw [if_pos ((less_iff hint x y).2 hlt), Int.min_eq_left (Int.le_of_lt hlt), ofInt_toInt hint]
      · rw [if_neg (mt (less_iff hint x y).1 hlt), Int.min_eq_right (Int.not_lt.1 hlt),
          ofInt_toInt hint]

/-! ## Quotients -/

/-- A quotient by anything but zero and minus one stays within the bounds of its dividend's type. -/
theorem tdiv_bounds {b x y : Int} (hb : 0 < b) (hlow : -b ≤ x) (hhigh : x < b) (h0 : y ≠ 0)
    (h1 : y ≠ -1) : -b ≤ x.tdiv y ∧ x.tdiv y < b := by
  by_cases hone : y = 1
  · rw [hone, Int.tdiv_one]
    exact ⟨hlow, hhigh⟩
  · have habs : (x.tdiv y).natAbs = x.natAbs / y.natAbs := Int.natAbs_tdiv x y
    have hhalf : x.natAbs / y.natAbs ≤ x.natAbs / 2 := Nat.div_le_div_left (by omega) (by omega)
    omega

theorem fits_i32 (n : Int) : Fits .i32 n ↔ -2 ^ 31 ≤ n ∧ n < 2 ^ 31 := by
  have hround : toInt .i32 (ofInt .i32 n) = n.bmod (2 ^ 32) := Int32.toInt_ofInt
  rw [Fits, hround, Int.bmod_eq_iff (by decide)]
  omega

theorem fits_i64 (n : Int) : Fits .i64 n ↔ -2 ^ 63 ≤ n ∧ n < 2 ^ 63 := by
  have hround : toInt .i64 (ofInt .i64 n) = n.bmod (2 ^ 64) := Int64.toInt_ofInt
  rw [Fits, hround, Int.bmod_eq_iff (by decide)]
  omega

/-- Of two signed words, only the least one by minus one has a quotient that does not fit. -/
theorem tdiv_bounds_iff {b x y : Int} (hb : 0 < b) (hlow : -b ≤ x) (hhigh : x < b) (h0 : y ≠ 0) :
    (-b ≤ x.tdiv y ∧ x.tdiv y < b) ↔ ¬ (y = -1 ∧ -b = x) := by
  by_cases h1 : y = -1
  · rw [h1, Int.tdiv_neg, Int.tdiv_one]
    omega
  · simp [h1, tdiv_bounds hb hlow hhigh h0 h1]

/-- A division of signed words is refused where there is no quotient or it does not fit. -/
theorem fault?_div_signed {b : Int} (hint : d.isFloat = false) (hb : 0 < b)
    (hleast : least? d = some (-b)) (hfits : ∀ n, Fits d n ↔ -b ≤ n ∧ n < b) {x : d.Elem}
    (hlow : -b ≤ toInt d x) (hhigh : toInt d x < b) (y : d.Elem) :
    BinaryOp.fault? .div d x y = quotientFault? d x y := by
  by_cases h0 : toInt d y = 0
  · simp [BinaryOp.fault?, quotientFault?, hint, h0]
  · have hquotient := (hfits _).trans (tdiv_bounds_iff hb hlow hhigh h0)
    by_cases hover : toInt d y = -1 ∧ -b = toInt d x
    · have hlarge : ¬ Fits d ((toInt d x).tdiv (toInt d y)) := fun hf => hquotient.1 hf hover
      simp only [BinaryOp.fault?, quotientFault?, hint, h0, hleast, hlarge, Option.some.injEq]
      simp [if_pos hover]
    · simp [BinaryOp.fault?, quotientFault?, hint, h0, hleast, hover, hquotient.2 hover]

/-- A division is refused where there is no quotient or it does not fit. -/
theorem fault?_div (x y : d.Elem) : BinaryOp.fault? .div d x y = quotientFault? d x y := by
  cases d with
  | f32 => rfl
  | f64 => rfl
  | i32 =>
    exact fault?_div_signed rfl (by decide) rfl fits_i32 (Int32.le_toInt x) (Int32.toInt_lt x) y
  | i64 =>
    exact fault?_div_signed rfl (by decide) rfl fits_i64 (Int64.le_toInt x) (Int64.toInt_lt x) y
  | u8 =>
    have hfits : Fits .u8 ((toInt .u8 x).tdiv (toInt .u8 y)) := by
      rw [Fits, ofInt_tdiv rfl]
      exact Int.ofNat_tdiv _ _
    simp [BinaryOp.fault?, quotientFault?, DType.isFloat, hfits, least?]

theorem elementwise_eq (op : BinaryOp) (x y : d.Elem) :
    elementwise op d x y =
      match op.fault? d x y with
      | some message => .error message
      | none => .ok (op.apply d x y) := by
  have hfault : op.fault? d x y = if op = .div then quotientFault? d x y else none := by
    by_cases hop : op = .div
    · rw [hop, if_pos rfl, fault?_div]
    · simp [BinaryOp.fault?, hop]
  rw [hfault, apply_eq_value]
  rfl

/-! ## Sums -/

/-- A sum of integers in words of 64 bits is the exact sum, wrapped. -/
theorem foldl_add_ofInt {α : Type} (word : α → Int64) (number : α → Int)
    (h : ∀ x, word x = Int64.ofInt (number x)) (xs : List α) (t : Int) :
    xs.foldl (fun (t : Int64) x => t + word x) (Int64.ofInt t) =
      Int64.ofInt (t + (xs.map number).sum) := by
  induction xs generalizing t with
  | nil => simp
  | cons x xs ih =>
    rw [List.foldl_cons, h, ← Int64.ofInt_add, ih, List.map_cons, List.sum_cons, Int.add_assoc]

theorem total_eq_sum (d : DType) (xs : List d.Elem) : Kernel.total d xs = sum d xs := by
  cases d with
  | f32 => rw [Kernel.total, sum, List.foldl_map]
  | f64 => rfl
  | i32 =>
    have hsum := foldl_add_ofInt (fun x : Int32 => x.toInt64) Int32.toInt
      (fun x => Int64.toInt.inj (by simp)) xs 0
    rw [Int.zero_add] at hsum
    exact (congrArg Int64.toInt32 hsum).trans Int64.toInt32_ofInt
  | i64 =>
    have hsum := foldl_add_ofInt (fun x : Int64 => x) Int64.toInt
      (fun x => (Int64.ofInt_toInt x).symm) xs 0
    rw [Int.zero_add] at hsum
    exact hsum
  | u8 =>
    obtain ⟨n, hn⟩ : ∃ n : Nat, (xs.map (toInt .u8)).sum = n := by
      refine Int.eq_ofNat_of_zero_le ?_
      induction xs with
      | nil => simp
      | cons x xs ih => exact Int.add_nonneg (Int.natCast_nonneg _) ih
    have hsum := foldl_add_ofInt (fun x : UInt8 => Int64.ofNat x.toNat) (toInt .u8)
      (fun x => rfl) xs 0
    rw [Int.zero_add, hn, Int64.ofInt_eq_ofNat] at hsum
    have htotal : (Int64.ofNat n).toUInt64.toUInt8 = UInt8.ofInt n := by simp [ofInt_natCast]
    exact (congrArg (fun t : Int64 => t.toUInt64.toUInt8) hsum).trans
      (htotal.trans (congrArg UInt8.ofInt hn).symm)

end Reference

/-! ## Arrays -/

namespace Buffer

variable {b : Buffer} {t : Tensor} {d : DType}

/-- Generated code reads the elements of the array that a buffer holds. -/
theorem elements?_tensor (hb : b.WellFormed) (ht : b.tensor = t) (hd : t.dtype = d) :
    Strided.elements? b d = some (t.as d) := by
  subst ht hd
  rw [Tensor.as_dtype]
  exact Strided.elements?_eq_elements hb

theorem length_as (ht : b.tensor = t) (hd : t.dtype = d) : (t.as d).length = t.dims.prod := by
  subst ht hd
  rw [Tensor.as_dtype, tensor, elements_eq, List.length_map, List.length_range, length_eq]

/-- The one element of a buffer without axes is at its start. -/
theorem loadAt?_scalar (hb : b.WellFormed) (ht : b.tensor = t) (hd : t.dtype = d) (hs : t.dims = []) :
    Strided.loadAt? b d 0 = some ((t.as d).headD (Element.zero d)) := by
  subst ht hd
  have hdims : b.dims = [] := hs
  have hfits := hb.size_le_storage
  have hhead : b.elements b.dtype = [b.load b.dtype 0] := by
    have hoff : b.byteOffset 0 = 0 := by rw [byteOffset, hdims]; rfl
    simp [elements_eq, length, hdims, hoff]
  rw [Tensor.as_dtype, Strided.loadAt?, tensor]
  simp [hfits, hhead]

end Buffer

namespace Kernel

/-- The number of operands. -/
def arity : Kernel → Nat
  | scale _ => 2
  | reduceSum _ => 1
  | binary _ _ => 2
  | unary _ _ => 1

theorem arity_pos (k : Kernel) : 0 < k.arity := by cases k <;> exact Nat.succ_pos _

/-- Operands of the right element type, with a scalar for a factor. -/
structure Accepts (k : Kernel) (operand : Nat → Tensor) : Prop where
  dtype : ∀ i < k.arity, (operand i).dtype = k.dtype
  scalar : ∀ d, k = .scale d → (operand 1).dims = []

/-- The extents of the result. -/
def resultDims (operand : Nat → Tensor) : Kernel → List Nat
  | reduceSum _ => []
  | _ => (operand 0).dims

/-- Pairs are combined as in the reference, up to the first that fails. -/
theorem mapM_elementwise (op : BinaryOp) (d : DType) (pairs : List (d.Elem × d.Elem)) :
    (pairs.mapM fun (x, y) => Reference.elementwise op d x y) =
      match (combine op d pairs).failure with
      | some message => .error message
      | none => .ok (combine op d pairs).elements := by
  induction pairs with
  | nil => rfl
  | cons pair pairs ih =>
    obtain ⟨x, y⟩ := pair
    rw [List.mapM_cons, ih]
    simp only [Reference.elementwise_eq, combine]
    cases op.fault? d x y with
    | some message => rfl
    | none => cases (combine op d pairs).failure <;> rfl

theorem length_combine_le (op : BinaryOp) (d : DType) (pairs : List (d.Elem × d.Elem)) :
    (combine op d pairs).elements.length ≤ pairs.length := by
  induction pairs with
  | nil => simp [combine]
  | cons pair pairs ih =>
    rw [combine]
    cases op.fault? d pair.1 pair.2 with
    | some message => simp
    | none => simpa using ih

theorem length_combine {op : BinaryOp} {d : DType} {pairs : List (d.Elem × d.Elem)}
    (h : (combine op d pairs).failure = none) :
    (combine op d pairs).elements.length = pairs.length := by
  induction pairs with
  | nil => simp [combine]
  | cons pair pairs ih =>
    rw [combine] at h ⊢
    cases hf : op.fault? d pair.1 pair.2 with
    | some message => simp [hf] at h
    | none => simpa [hf] using ih (by simpa [hf] using h)

/-- What a kernel writes is right: the elements of the tensor of the reference, or a part of them if the
reference fails, and it fails with the same text. -/
structure Right (k : Kernel) (operand : Nat → Tensor) (w : Written k.dtype) : Prop where
  room : w.elements.length ≤ (k.resultDims operand).prod
  outcome : k.evaluate operand =
    match w.failure with
    | some message => .error message
    | none => .ok ⟨k.dtype, k.resultDims operand, w.elements⟩
  full : w.failure = none → w.elements.length = (k.resultDims operand).prod

theorem Right.of_evaluate {k : Kernel} {operand : Nat → Tensor} {xs : List k.dtype.Elem}
    (hlen : xs.length = (k.resultDims operand).prod)
    (h : k.evaluate operand = .ok ⟨k.dtype, k.resultDims operand, xs⟩) : k.Right operand ⟨xs, none⟩ :=
  ⟨Nat.le_of_eq hlen, h, fun _ => hlen⟩

/-- **On well-formed operands a kernel computes what the reference says.** -/
theorem compute_eq {k : Kernel} {operand? : Nat → Option Buffer} {operand : Nat → Tensor}
    (hk : k.Accepts operand)
    (hops : ∀ i < k.arity, ∃ b, operand? i = some b ∧ b.WellFormed ∧ b.tensor = operand i) :
    ∃ w, compute operand? k = some w ∧ k.Right operand w := by
  have hfirst := k.arity_pos
  obtain ⟨x, hx, hxw, hxt⟩ := hops 0 hfirst
  have hxs : Strided.elements? x k.dtype = some ((operand 0).as k.dtype) :=
    Buffer.elements?_tensor hxw hxt (hk.dtype 0 hfirst)
  have hxl : ((operand 0).as k.dtype).length = (operand 0).dims.prod :=
    Buffer.length_as hxt (hk.dtype 0 hfirst)
  cases k with
  | scale d =>
    obtain ⟨y, hy, hyw, hyt⟩ := hops 1 (Nat.lt_succ_self 1)
    have hfactor := Buffer.loadAt?_scalar hyw hyt (hk.dtype 1 (Nat.lt_succ_self 1)) (hk.scalar d rfl)
    simp only [dtype] at hxs hxl hfactor
    refine ⟨⟨((operand 0).as d).map fun v =>
      Element.mul d v (((operand 1).as d).headD (Element.zero d)), none⟩, ?_,
      .of_evaluate ((List.length_map _).trans hxl) ?_⟩
    · simp [compute, hx, hy, hfactor, hxs]
    · simp only [evaluate, ← Reference.apply_eq_value]
      rfl
  | reduceSum d =>
    simp only [dtype] at hxs
    refine ⟨⟨[total d ((operand 0).as d)], none⟩, ?_, .of_evaluate rfl ?_⟩
    · simp [compute, hx, hxs]
    · simp only [evaluate, ← Reference.total_eq_sum]
      rfl
  | binary op d =>
    obtain ⟨y, hy, hyw, hyt⟩ := hops 1 (Nat.lt_succ_self 1)
    have hys := Buffer.elements?_tensor hyw hyt (hk.dtype 1 (Nat.lt_succ_self 1))
    have hyl := Buffer.length_as hyt (hk.dtype 1 (Nat.lt_succ_self 1))
    simp only [dtype] at hxs hxl hys hyl
    have hsame : Strided.sameDims x y = true ↔ (operand 0).dims = (operand 1).dims := by
      rw [Strided.sameDims_iff hxw hyw, ← hxt, ← hyt]
      rfl
    by_cases hd : (operand 0).dims = (operand 1).dims
    · have hzip : (((operand 0).as d).zip ((operand 1).as d)).length = (operand 0).dims.prod := by
        rw [List.length_zip, hxl, hyl, hd, Nat.min_self]
      refine ⟨combine op d (((operand 0).as d).zip ((operand 1).as d)), ?_, ?_, ?_, ?_⟩
      · simp only [compute, hx, hy, hsame.2 hd, hxs, hys, Option.bind_eq_bind, Option.bind_some]
        rfl
      · exact hzip ▸ length_combine_le op d _
      · rw [evaluate, if_pos hd, mapM_elementwise]
        cases (combine op d (((operand 0).as d).zip ((operand 1).as d))).failure <;> rfl
      · exact fun hnone => hzip ▸ length_combine hnone
    · refine ⟨⟨[], some extentsDiffer⟩, ?_, ?_, ?_, ?_⟩
      · simp [compute, hx, hy, mt hsame.1 hd]
      · simp
      · simp [evaluate, hd]
      · simp
  | unary op d =>
    simp only [dtype] at hxs hxl
    refine ⟨⟨((operand 0).as d).map (op.apply d), none⟩, ?_,
      .of_evaluate ((List.length_map _).trans hxl) rfl⟩
    simp [compute, hx, hxs]

end Kernel

end OpFusion
