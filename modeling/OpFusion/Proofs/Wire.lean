/-
  What is written can be read, and says what was written.

  `Reads`: a decoder gives back each value that fits, and leaves what follows it. `Exact`: a decoder reads
  nothing but what is written for such a value. `Apart`: values that fit are told apart by what is
  written for them, whatever follows. The first gives the last (`Reads.apart`), and lists, options and
  records of such values are told apart in turn.
-/
import OpFusion.Proofs.Text.Utf8
import OpFusion.Wire

namespace OpFusion

/-- Reading back gives the number up to the bytes that were written. -/
theorem ofLeBytes_leBytes (width n : Nat) : ofLeBytes (leBytes width n) = n % 256 ^ width := by
  induction width generalizing n with
  | zero => simp [leBytes, ofLeBytes, Nat.mod_one]
  | succ width ih =>
    have head : (UInt8.ofNat n).toNat = n % 256 := by simp
    rw [leBytes, ofLeBytes, ih, head, Nat.pow_succ, Nat.mul_comm (256 ^ width) 256, Nat.mod_mul]

/-- Bytes are what is written for the number that they write. -/
theorem leBytes_ofLeBytes (bs : List UInt8) : leBytes bs.length (ofLeBytes bs) = bs := by
  induction bs with
  | nil => rfl
  | cons b bs ih =>
    have hb := b.toNat_lt
    have hhead : UInt8.ofNat (b.toNat + 256 * ofLeBytes bs) = b :=
      UInt8.toNat_inj.1 (by rw [UInt8.toNat_ofNat']; omega)
    have htail : (b.toNat + 256 * ofLeBytes bs) / 256 = ofLeBytes bs := by omega
    rw [List.length_cons, ofLeBytes, leBytes, hhead, htail, ih]

theorem ofLeBytes_lt (bs : List UInt8) : ofLeBytes bs < 256 ^ bs.length := by
  induction bs with
  | nil => exact Nat.one_pos
  | cons b bs ih =>
    have hb := b.toNat_lt
    rw [ofLeBytes, List.length_cons, Nat.pow_succ]
    omega

namespace Wire

/-! ## Sizes -/

/-- Bytes that a word can count. -/
def Short (bs : List UInt8) : Prop := bs.length < 2 ^ 64

theorem Short.left {bs cs : List UInt8} (h : Short (bs ++ cs)) : Short bs := by
  rw [Short, List.length_append] at h
  exact Nat.lt_of_le_of_lt (Nat.le_add_right _ _) h

theorem Short.right {bs cs : List UInt8} (h : Short (bs ++ cs)) : Short cs := by
  rw [Short, List.length_append] at h
  exact Nat.lt_of_le_of_lt (Nat.le_add_left _ _) h

variable {α : Type} {item : α → List UInt8} {xs ys : List α}

theorem length_le_flatMap {x : α} (hx : x ∈ xs) : (item x).length ≤ (xs.flatMap item).length := by
  induction xs with
  | nil => cases hx
  | cons y xs ih =>
    rw [List.flatMap_cons, List.length_append]
    rcases List.mem_cons.1 hx with rfl | hx
    · exact Nat.le_add_right _ _
    · exact Nat.le_trans (ih hx) (Nat.le_add_left _ _)

theorem Short.mem_list {x : α} (h : Short (list item xs)) (hx : x ∈ xs) : Short (item x) :=
  Nat.lt_of_le_of_lt (length_le_flatMap hx) h.right

/-- A list that is written in few bytes has few elements. -/
theorem Short.length_list (h : Short (list item xs)) (hpos : ∀ x, 0 < (item x).length) :
    xs.length < 2 ^ 64 := by
  have hle : ∀ xs : List α, xs.length ≤ (xs.flatMap item).length := by
    intro xs
    induction xs with
    | nil => exact Nat.le_refl _
    | cons x xs ih =>
      have hx := hpos x
      rw [List.flatMap_cons, List.length_append, List.length_cons]
      omega
  exact Nat.lt_of_le_of_lt (hle xs) h.right

theorem length_string_pos (s : String) : 0 < (string s).length := by
  rw [string, bytes, List.length_append, u64, length_leBytes]
  omega

/-- A text whose length is a word. -/
def TextFits (s : String) : Prop := Short (Utf8.bytesOf s)

/-- A list whose length is a word and whose elements fit. -/
structure ListFits (fits : α → Prop) (xs : List α) : Prop where
  length : xs.length < 2 ^ 64
  each : ∀ x ∈ xs, fits x

theorem Short.listFits {fits : α → Prop} (h : Short (list item xs)) (hpos : ∀ x, 0 < (item x).length)
    (hfits : ∀ x ∈ xs, Short (item x) → fits x) : ListFits fits xs :=
  ⟨h.length_list hpos, fun x hx => hfits x hx (h.mem_list hx)⟩

theorem Short.textsFit {texts : List String} (h : Short (list string texts)) : ListFits TextFits texts :=
  h.listFits length_string_pos fun _ _ hs => hs.right

/-! ## Reading back -/

/-- A decoder gives back each value that fits, and leaves what follows. -/
def Reads (fits : α → Prop) (item : α → List UInt8) (read : Decoder α) : Prop :=
  ∀ x, fits x → ∀ rest, read (item x ++ rest) = .ok (x, rest)

/-- Values that fit are told apart by what is written for them, whatever follows. -/
def Apart (fits : α → Prop) (item : α → List UInt8) : Prop :=
  ∀ x y, fits x → fits y → ∀ r s, item x ++ r = item y ++ s → x = y ∧ r = s

theorem Reads.apart {fits : α → Prop} {read : Decoder α} (h : Reads fits item read) :
    Apart fits item := by
  intro x y hx hy r s heq
  have hread := h x hx r
  rw [heq, h y hy s] at hread
  cases hread
  exact ⟨rfl, rfl⟩

theorem take_append (fault : Fault) (bs rest : List UInt8) :
    take fault bs.length (bs ++ rest) = .ok (bs, rest) := by
  rw [take, if_pos (by simp), List.take_left, List.drop_left]

theorem reads_number (width : Nat) :
    Reads (· < 256 ^ width) (leBytes width) (readNumber width) := by
  intro n hn rest
  have htake := take_append .endOfInput (leBytes width n) rest
  rw [length_leBytes] at htake
  rw [readNumber, htake]
  show Except.ok (ofLeBytes (leBytes width n), rest) = _
  rw [ofLeBytes_leBytes, Nat.mod_eq_of_lt hn]

theorem reads_u32 : Reads (· < 2 ^ 32) u32 (readNumber 4) := reads_number 4

theorem reads_u64 : Reads (· < 2 ^ 64) u64 (readNumber 8) := reads_number 8

theorem reads_bool : Reads (fun _ => True) bool readBool := by
  intro b _ rest
  cases b <;> rfl

theorem reads_bytes : Reads Short bytes readBytes := by
  intro bs hbs rest
  rw [bytes, List.append_assoc, readBytes, reads_u64 bs.length hbs]
  exact take_append _ bs rest

theorem reads_string : Reads (fun s => Short (Utf8.bytesOf s)) string readString := by
  intro s hs rest
  rw [string, bytes, List.append_assoc, readString, reads_u64 _ hs]
  show (take .shortString (Utf8.bytesOf s).length (Utf8.bytesOf s ++ rest) >>= fun _ => _) = _
  rw [take_append]
  simp only [bind, Except.bind, Utf8.bytesOf, Utf8.decode_encode, String.ofList_toList]

/-! ## Reading nothing else -/

/-- A decoder reads only what is written for values that fit. -/
def Exact (fits : α → Prop) (item : α → List UInt8) (read : Decoder α) : Prop :=
  ∀ input x rest, read input = .ok (x, rest) → fits x ∧ input = item x ++ rest

theorem take_eq_ok {fault : Fault} {n : Nat} {input bs rest : List UInt8}
    (h : take fault n input = .ok (bs, rest)) : bs.length = n ∧ input = bs ++ rest := by
  unfold take at h
  split at h
  · next hn =>
    cases h
    exact ⟨List.length_take_of_le hn, (List.take_append_drop n input).symm⟩
  · cases h

theorem exact_number (width : Nat) :
    Exact (· < 256 ^ width) (leBytes width) (readNumber width) := by
  intro input n rest h
  obtain ⟨⟨bs, rest'⟩, htake, h⟩ := Outcome.bind_eq_ok.1 h
  cases h
  obtain ⟨rfl, rfl⟩ := take_eq_ok htake
  exact ⟨ofLeBytes_lt bs, by rw [leBytes_ofLeBytes]⟩

theorem exact_u32 : Exact (· < 2 ^ 32) u32 (readNumber 4) := exact_number 4

theorem exact_u64 : Exact (· < 2 ^ 64) u64 (readNumber 8) := exact_number 8

theorem exact_bool : Exact (fun _ => True) bool readBool := by
  intro input b rest h
  unfold readBool at h
  split at h
  · cases h
  · split at h
    · next hb =>
      cases h
      exact ⟨trivial, by rw [hb]; rfl⟩
    split at h
    · next hb =>
      cases h
      exact ⟨trivial, by rw [hb]; rfl⟩
    · cases h

theorem exact_bytes : Exact Short bytes readBytes := by
  intro input bs rest h
  obtain ⟨⟨n, rest'⟩, hn, htake⟩ := Outcome.bind_eq_ok.1 h
  obtain ⟨hlt, rfl⟩ := exact_u64 _ _ _ hn
  obtain ⟨rfl, rfl⟩ := take_eq_ok htake
  exact ⟨hlt, by rw [bytes, List.append_assoc]⟩

theorem exact_string : Exact TextFits string readString := by
  intro input s rest h
  obtain ⟨⟨n, rest'⟩, hn, hrest⟩ := Outcome.bind_eq_ok.1 h
  obtain ⟨⟨bs, rest''⟩, htake, htext⟩ := Outcome.bind_eq_ok.1 hrest
  obtain ⟨hlt, rfl⟩ := exact_u64 _ _ _ hn
  obtain ⟨rfl, rfl⟩ := take_eq_ok htake
  dsimp only at htext
  split at htext
  · next cs hdecode =>
    cases htext
    -- the bytes of the string that is read are the bytes that were taken
    have hbs : Utf8.bytesOf (String.ofList cs) = bs := by
      rw [Utf8.bytesOf, String.toList_ofList, Utf8.decode_eq_ok_iff.1 hdecode]
    rw [TextFits, string, hbs]
    exact ⟨hlt, by rw [bytes, List.append_assoc]⟩
  · cases htext

/-! ## Telling apart -/

variable {fits : α → Prop}

theorem apart_string : Apart TextFits string := reads_string.apart

theorem Apart.option (h : Apart fits item) : Apart (fun o => ∀ x, o = some x → fits x) (option item) := by
  intro o p ho hp r s heq
  cases o with
  | none =>
    cases p with
    | none => exact ⟨rfl, (List.cons.inj heq).2⟩
    | some y => exact absurd (List.cons.inj heq).1 (by decide)
  | some x =>
    cases p with
    | none => exact absurd (List.cons.inj heq).1 (by decide)
    | some y =>
      obtain ⟨rfl, hrest⟩ := h x y (ho x rfl) (hp y rfl) r s (List.cons.inj heq).2
      exact ⟨rfl, hrest⟩

theorem Apart.flatMap (h : Apart fits item) (hx : ∀ x ∈ xs, fits x) (hy : ∀ y ∈ ys, fits y)
    (hlength : xs.length = ys.length) {r s : List UInt8}
    (heq : xs.flatMap item ++ r = ys.flatMap item ++ s) : xs = ys ∧ r = s := by
  induction xs generalizing ys with
  | nil =>
    obtain rfl : ys = [] := List.length_eq_zero_iff.1 hlength.symm
    exact ⟨rfl, heq⟩
  | cons x xs ih =>
    obtain ⟨y, ys, rfl⟩ := List.exists_cons_of_length_eq_add_one hlength.symm
    rw [List.flatMap_cons, List.flatMap_cons, List.append_assoc, List.append_assoc] at heq
    obtain ⟨rfl, hrest⟩ := h x y (hx x (by simp)) (hy y (by simp)) _ _ heq
    obtain ⟨rfl, htail⟩ := ih (fun z hz => hx z (by simp [hz])) (fun z hz => hy z (by simp [hz]))
      (by simpa using hlength) hrest
    exact ⟨rfl, htail⟩

theorem Apart.list (h : Apart fits item) : Apart (ListFits fits) (list item) := by
  intro xs ys hx hy r s heq
  rw [Wire.list, Wire.list, List.append_assoc, List.append_assoc] at heq
  obtain ⟨hlength, hrest⟩ := reads_u64.apart _ _ hx.length hy.length _ _ heq
  exact h.flatMap hx.each hy.each hlength hrest

theorem apart_strings : Apart (ListFits TextFits) (list string) := apart_string.list

end Wire

end OpFusion
