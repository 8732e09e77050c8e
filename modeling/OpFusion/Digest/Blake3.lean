/-
  The BLAKE3 hash with a digest of 32 bytes.

  The input is cut into chunks of 1024 bytes and each chunk into blocks of 64. A chunk's blocks are
  compressed one after another; the chunks are the leaves of a tree whose left subtrees hold the
  largest power of two of chunks that leaves something for the right. The last compression of the
  root is marked as such and gives the digest.
-/
import OpFusion.Endian

namespace OpFusion.Blake3

/-- Eight words: a chaining value. -/
abbrev Chain : Type := Vector UInt32 8

/-- Sixteen words: a message block, or the state of a compression. -/
abbrev Words : Type := Vector UInt32 16

/-- The initial chaining value. -/
def iv : Chain :=
  #v[0x6A09E667, 0xBB67AE85, 0x3C6EF372, 0xA54FF53A, 0x510E527F, 0x9B05688C, 0x1F83D9AB, 0x5BE0CD19]

/-- The flag of the first block of a chunk. -/
def chunkStart : UInt32 := 1

/-- The flag of the last block of a chunk. -/
def chunkEnd : UInt32 := 2

/-- The flag of an inner node. -/
def parentNode : UInt32 := 4

/-- The flag of the last compression of the root. -/
def rootNode : UInt32 := 8

/-- Rotation of a word to the right. -/
def rotate (x : UInt32) (k : UInt32) : UInt32 := (x >>> k) ||| (x <<< (32 - k))

/-- Mixes two message words into one column or diagonal of the state. -/
def mix (v : Words) (a b c d : Fin 16) (x y : UInt32) : Words :=
  let v := v.set a (v[a] + v[b] + x)
  let v := v.set d (rotate (v[d] ^^^ v[a]) 16)
  let v := v.set c (v[c] + v[d])
  let v := v.set b (rotate (v[b] ^^^ v[c]) 12)
  let v := v.set a (v[a] + v[b] + y)
  let v := v.set d (rotate (v[d] ^^^ v[a]) 8)
  let v := v.set c (v[c] + v[d])
  v.set b (rotate (v[b] ^^^ v[c]) 7)

/-- One round: the four columns, then the four diagonals. -/
def round (v m : Words) : Words :=
  let v := mix v 0 4 8 12 m[0] m[1]
  let v := mix v 1 5 9 13 m[2] m[3]
  let v := mix v 2 6 10 14 m[4] m[5]
  let v := mix v 3 7 11 15 m[6] m[7]
  let v := mix v 0 5 10 15 m[8] m[9]
  let v := mix v 1 6 11 12 m[10] m[11]
  let v := mix v 2 7 8 13 m[12] m[13]
  mix v 3 4 9 14 m[14] m[15]

/-- The order of the message words in the next round. -/
def permute (m : Words) : Words :=
  #v[m[2], m[6], m[3], m[10], m[7], m[0], m[4], m[13], m[1], m[11], m[12], m[5], m[9], m[14],
    m[15], m[8]]

/-- The given number of rounds, with the message permuted between them. -/
def rounds : Nat → Words → Words → Words
  | 0, v, _ => v
  | n + 1, v, m => rounds n (round v m) (permute m)

/-- What is compressed last in a subtree. -/
structure Node where
  chain : Chain
  block : Words
  counter : UInt64
  length : UInt32
  flags : UInt32

/-- The eight words that a compression yields. -/
def Node.compress (n : Node) (extra : UInt32) : Chain :=
  let h := n.chain
  let v : Words :=
    #v[h[0], h[1], h[2], h[3], h[4], h[5], h[6], h[7], iv[0], iv[1], iv[2], iv[3],
      n.counter.toUInt32, (n.counter >>> 32).toUInt32, n.length, n.flags ||| extra]
  let v := rounds 7 v n.block
  #v[v[0] ^^^ v[8], v[1] ^^^ v[9], v[2] ^^^ v[10], v[3] ^^^ v[11], v[4] ^^^ v[12], v[5] ^^^ v[13],
    v[6] ^^^ v[14], v[7] ^^^ v[15]]

/-- The word at a position of a block; missing bytes are zero. -/
def wordAt (bytes : List UInt8) (i : Nat) : UInt32 :=
  UInt32.ofNat (ofLeBytes ((bytes.drop (4 * i)).take 4))

/-- The words of a block of at most 64 bytes. -/
def blockWords (bytes : List UInt8) : Words := Vector.ofFn fun i => wordAt bytes i

/-- The last node of a chunk, from the chaining value of the blocks before. -/
def chunkFrom (counter : UInt64) (chain : Chain) (start : UInt32) (bytes : List UInt8) : Node :=
  let node : Node :=
    ⟨chain, blockWords (bytes.take 64), counter, UInt32.ofNat (min 64 bytes.length), start⟩
  if bytes.length ≤ 64 then { node with flags := start ||| chunkEnd }
  else chunkFrom counter (node.compress 0) 0 (bytes.drop 64)
termination_by bytes.length
decreasing_by simp only [List.length_drop]; omega

/-- The last node of a chunk. -/
def chunk (counter : UInt64) (bytes : List UInt8) : Node := chunkFrom counter iv chunkStart bytes

/-- The node above two subtrees. -/
def parent (left right : Chain) : Node :=
  ⟨iv, Vector.ofFn fun i => if h : i.val < 8 then left[i.val] else right[i.val - 8], 0, 64, parentNode⟩

/-- The largest power of two that is at most `n`, by doubling from `p`. -/
def powerBelow (n : Nat) : (fuel p : Nat) → Nat
  | 0, p => p
  | fuel + 1, p => if 2 * p ≤ n then powerBelow n fuel (2 * p) else p

/-- The bytes of the left subtree of an input of more than one chunk. -/
def leftLength (length : Nat) : Nat :=
  let chunks := (length - 1) / 1024
  1024 * powerBelow chunks chunks 1

theorem powerBelow_le (n fuel p : Nat) (h : p ≤ n) : powerBelow n fuel p ≤ n := by
  induction fuel generalizing p with
  | zero => exact h
  | succ fuel ih =>
    rw [powerBelow]
    split
    · exact ih _ ‹_›
    · exact h

theorem one_le_powerBelow (n fuel p : Nat) (h : 1 ≤ p) : 1 ≤ powerBelow n fuel p := by
  induction fuel generalizing p with
  | zero => exact h
  | succ fuel ih =>
    rw [powerBelow]
    split
    · exact ih _ (by omega)
    · exact h

/-- Both subtrees of an input of more than one chunk are shorter than it. -/
theorem leftLength_lt (length : Nat) (h : 1024 < length) :
    0 < leftLength length ∧ leftLength length < length := by
  have hc : 1 ≤ (length - 1) / 1024 := by omega
  have lo := one_le_powerBelow ((length - 1) / 1024) ((length - 1) / 1024) 1 (by omega)
  have hi := powerBelow_le ((length - 1) / 1024) ((length - 1) / 1024) 1 hc
  simp only [leftLength]
  omega

/-- The root node of the tree over an input whose first chunk has the given number. -/
def tree (counter : UInt64) (bytes : List UInt8) : Node :=
  if _h : bytes.length ≤ 1024 then chunk counter bytes
  else
    let n := leftLength bytes.length
    let left := tree counter (bytes.take n)
    let right := tree (counter + UInt64.ofNat (n / 1024)) (bytes.drop n)
    parent (left.compress 0) (right.compress 0)
termination_by bytes.length
decreasing_by
  all_goals
    have := leftLength_lt bytes.length (by omega)
    simp only [List.length_take, List.length_drop]
    omega

/-- The digest of an input. -/
def digest (bytes : List UInt8) : List UInt8 :=
  ((tree 0 bytes).compress rootNode).toList.flatMap fun w => leBytes 4 w.toNat

@[simp] theorem length_digest (bytes : List UInt8) : (digest bytes).length = 32 := by
  simp [digest, List.length_flatMap, List.map_const']

end OpFusion.Blake3
