/-
  Values in storage.

  The byte offsets of the elements of a buffer are the multiples of their size, each one once
  (`byteOffset_bijOn`), so that different elements share no byte. Values that are written one after another
  then leave those before them alone, and a buffer that is made from values has them as its elements
  (`elements_fill`).
-/
import OpFusion.Proofs.Buffer.Checked

namespace OpFusion.Buffer

variable {memory : Memory} {b : Buffer}

/-! ## Offsets -/

/-- **The offsets of the elements are the multiples of their size,** whatever the layout. -/
theorem WellFormed.byteOffset_bijOn (h : b.WellFormed memory) :
    Set.BijOn b.byteOffset (Set.Iio b.length)
      {o | b.dtype.size ∣ o ∧ o < b.length * b.dtype.size} := by
  obtain ⟨layout, hlayout⟩ := h.strides
  have hsize := b.dtype.size_pos
  by_cases hempty : b.length = 0
  · refine ⟨fun p hp => ?_, fun p hp => ?_, fun o ho => ?_⟩
    · simp [hempty] at hp
    · simp [hempty] at hp
    · simp [hempty] at ho
  have hscale : Set.BijOn (· * b.dtype.size) (Set.Iio b.length)
      {o | b.dtype.size ∣ o ∧ o < b.length * b.dtype.size} := by
    refine ⟨fun k hk => ?_, fun j _ k _ heq => Nat.eq_of_mul_eq_mul_right hsize heq, ?_⟩
    · exact ⟨Nat.dvd_mul_left _ _, Nat.mul_lt_mul_of_pos_right hk hsize⟩
    · rintro o ⟨⟨k, rfl⟩, hlt⟩
      rw [Nat.mul_comm] at hlt
      exact ⟨k, Nat.lt_of_mul_lt_mul_right hlt, Nat.mul_comm _ _⟩
  have hplaces := storageIndex_bijOn (pos_of_prod_ne_zero (length_eq b ▸ hempty)) layout
  rw [← length_eq] at hplaces
  exact (hscale.comp hplaces).congr fun p hp => (h.byteOffset_eq hlayout hp).symm

/-- Different elements share no byte. -/
theorem WellFormed.byteOffset_apart (h : b.WellFormed memory) {i j : Nat} (hi : i < b.length)
    (hj : j < b.length) (hne : i ≠ j) :
    b.byteOffset i + b.dtype.size ≤ b.byteOffset j ∨ b.byteOffset j + b.dtype.size ≤ b.byteOffset i := by
  have hbij := h.byteOffset_bijOn
  obtain ⟨⟨m, hm⟩, -⟩ := hbij.mapsTo hi
  obtain ⟨⟨n, hn⟩, -⟩ := hbij.mapsTo hj
  have hdiffer : b.byteOffset i ≠ b.byteOffset j := fun heq => hne (hbij.injOn hi hj heq)
  rw [hm, hn] at hdiffer ⊢
  rcases Nat.lt_or_gt_of_ne fun heq => hdiffer (congrArg _ heq) with hlt | hlt
  · exact .inl (Nat.mul_le_mul_left b.dtype.size hlt)
  · exact .inr (Nat.mul_le_mul_left b.dtype.size hlt)

/-! ## Filling -/

variable {d : DType} {position : Nat} {bytes : Array UInt8} {values : List d.Elem}

/-- A byte that belongs to none of the positions from `position` on stays as it is. -/
theorem getElem?_fillFrom_of_apart {i : Nat}
    (h : ∀ k < values.length,
      i < b.byteOffset (position + k) ∨ b.byteOffset (position + k) + d.size ≤ i) :
    (b.fillFrom d position bytes values)[i]? = bytes[i]? := by
  induction values generalizing position bytes with
  | nil => rfl
  | cons x values ih =>
    have hfirst := h 0 (by simp)
    rw [Nat.add_zero] at hfirst
    rw [fillFrom, ih fun k hk => ?_, getElem?_overwrite, if_neg]
    · rw [Element.length_toBytes]
      omega
    · rw [Nat.add_right_comm, Nat.add_assoc]
      exact h (k + 1) (by simpa using hk)

/-- Positions that share no byte have the bytes of their values. -/
theorem getElem?_fillFrom
    (hroom : ∀ k < values.length, b.byteOffset (position + k) + d.size ≤ bytes.size)
    (hapart : ∀ j k, j < k → k < values.length →
      b.byteOffset (position + j) + d.size ≤ b.byteOffset (position + k) ∨
        b.byteOffset (position + k) + d.size ≤ b.byteOffset (position + j))
    {k : Nat} (hk : k < values.length) {i : Nat} (hi : i < d.size) :
    (b.fillFrom d position bytes values)[b.byteOffset (position + k) + i]? =
      (Element.toBytes d values[k])[i]? := by
  induction values generalizing position bytes k with
  | nil => simp at hk
  | cons x values ih =>
    have hnext : ∀ k, position + 1 + k = position + (k + 1) := fun k => by omega
    rw [fillFrom]
    cases k with
    | zero =>
      -- the values that follow leave this one alone
      have hroom₀ := hroom 0 (by simp)
      simp only [Nat.add_zero] at hroom₀ ⊢
      rw [getElem?_fillFrom_of_apart fun k hk => ?_, getElem?_overwrite, if_pos,
        Nat.add_sub_cancel_left, List.getElem_cons_zero]
      · rw [Element.length_toBytes]
        omega
      · have hlater := hapart 0 (k + 1) (by omega) (by simpa using hk)
        rw [Nat.add_zero] at hlater
        rw [hnext]
        omega
    | succ k =>
      rw [← hnext k, List.getElem_cons_succ]
      refine ih (fun k hk => ?_) (fun j k hjk hk => ?_) (Nat.lt_of_succ_lt_succ hk)
      · rw [hnext, size_overwrite]
        exact hroom (k + 1) (by simpa using hk)
      · rw [hnext, hnext]
        exact hapart (j + 1) (k + 1) (by omega) (by simpa using hk)

/-- **A buffer that is filled with values has them as its elements.** -/
theorem WellFormed.elements_fill (h : b.WellFormed memory) {values : List b.dtype.Elem}
    (hlength : values.length = b.length) : (b.fill b.dtype values).elements b.dtype = values := by
  have hroom : ∀ k < values.length, b.byteOffset (0 + k) + b.dtype.size ≤ b.storage.toArray.size := by
    intro k hk
    rw [Nat.zero_add, List.size_toArray]
    exact Nat.le_trans (length_eq b ▸ h.byteOffset_add_le (hlength ▸ hk)) h.byteLength_le
  have hapart : ∀ j k, j < k → k < values.length →
      b.byteOffset (0 + j) + b.dtype.size ≤ b.byteOffset (0 + k) ∨
        b.byteOffset (0 + k) + b.dtype.size ≤ b.byteOffset (0 + j) := by
    intro j k hjk hk
    rw [Nat.zero_add, Nat.zero_add]
    exact h.byteOffset_apart (by omega) (by omega) (by omega)
  rw [elements_eq]
  refine List.ext_getElem (by simp [hlength, Buffer.fill, length]) fun k hk hk' => ?_
  have hbytes : readBytes (b.fill b.dtype values).storage (b.byteOffset k) b.dtype.size =
      Element.toBytes b.dtype values[k] := by
    refine List.ext_getElem? fun i => ?_
    rw [readBytes, List.getElem?_take, List.getElem?_drop]
    by_cases hi : i < b.dtype.size
    · have hfilled := getElem?_fillFrom hroom hapart hk' hi
      rw [Nat.zero_add] at hfilled
      rw [if_pos hi, Buffer.fill, Array.getElem?_toList, hfilled]
    · rw [if_neg hi, List.getElem?_eq_none (by rw [Element.length_toBytes]; omega)]
  rw [List.getElem_map, List.getElem_range, load]
  exact (congrArg (Element.ofBytes b.dtype) hbytes).trans (Element.ofBytes_toBytes _ _)

theorem Sound.elementCount_eq {dtype : DType} {dims : List Nat} (h : Sound dtype dims memory) :
    elementCount dims = some dims.prod := by
  obtain ⟨count, hcount, -⟩ := Option.bind_eq_some_iff.1 h.bytes
  rw [hcount, countFrom_eq hcount, Nat.one_mul]

/-- **Values are stored within bounds and read back.** Whenever a buffer is made from values, whatever the
memory of the machine, its byte offsets are the multiples of the element size, each one once, and elements
end within the words that are allocated. If there are elements, no product or sum for strides and offsets
leaves the signed words, and the number of elements is always a word. The values are read back from the
buffer and from a copy of it. -/
theorem stored_ofListWith (d : DType) (dims : List Nat) (values : List d.Elem) (layout : Layout)
    (memory : Memory) (b : Buffer) (h : ofListWith d dims values layout memory = .ok b) :
    Set.BijOn b.byteOffset (Set.Iio b.length) {o | d.size ∣ o ∧ o < b.length * d.size} ∧
    (b.storage.length = 8 * wordCount (b.length * d.size) ∧
      ∀ i < b.length, b.byteOffset i + d.size ≤ b.storage.length) ∧
    (b.length ≠ 0 → checkedStrides layout d.size dims = some b.strides ∧
      ∀ i < b.length, b.checkedByteOffset i = some (b.byteOffset i)) ∧
    elementCount dims = some b.length ∧
    b.toList d = .ok values ∧ b.clone.toList d = .ok values := by
  have hb := wellFormed_ofListWith h
  obtain ⟨b₀, halloc, hlength, rfl⟩ := ofListWith_eq_ok h
  have hb₀ := wellFormed_allocate halloc
  obtain ⟨hsound, rfl⟩ := allocate_eq_ok.1 halloc
  have hread := hb₀.elements_fill hlength
  have hlist : ((dense d dims layout (zeroStorage d dims)).fill d values).toList d = .ok values :=
    (if_pos rfl).trans (congrArg Except.ok hread)
  refine ⟨hb.byteOffset_bijOn, ⟨length_eq _ ▸ hb.storage, fun i hi => ?_⟩, fun hne => ⟨?_, fun i hi => ?_⟩,
    ?_, hlist, hlist⟩
  · exact Nat.le_trans (length_eq _ ▸ hb.byteOffset_add_le hi) hb.byteLength_le
  · exact checkedStrides_eq hsound (pos_of_prod_ne_zero fun h0 => hne ((length_eq _).trans h0)) layout
  · exact hb.checkedByteOffset_eq hi
  · rw [hsound.elementCount_eq, length_eq]
    rfl

/-- Six values in a shape of two rows, one of whose axes is trivial, stored by columns. -/
theorem stored_columns :
    ∃ b, ofListWith .i32 [2, 1, 3] [(1 : Int32), -2, 3, -4, 5, -6] .columnMajor = .ok b ∧
      (List.range 6).map b.byteOffset = [0, 8, 16, 4, 12, 20] ∧
      Set.BijOn b.byteOffset (Set.Iio 6) {o | 4 ∣ o ∧ o < 24} ∧
      b.toList .i32 = .ok [(1 : Int32), -2, 3, -4, 5, -6] := by
  obtain ⟨hbij, -, -, -, hread, -⟩ :=
    stored_ofListWith .i32 [2, 1, 3] [(1 : Int32), -2, 3, -4, 5, -6] .columnMajor .usual _ rfl
  exact ⟨_, rfl, by decide, hbij, hread⟩

end OpFusion.Buffer
