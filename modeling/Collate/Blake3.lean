/-!
# BLAKE3

The unkeyed hash with 32 bytes of output.  A text of bytes is cut into chunks of 1024 bytes; each
chunk is folded through the compression function block by block, and the chunks become the leaves
of a binary tree whose inner nodes compress the two values below them.  The last compression of a
chunk and of an inner node is left open as a `Node`, since the one at the root is finished with a
flag of its own.  A hash always has 32 bytes (`length_hash`).
-/

namespace Collate.Blake3

/-- The initial chaining value. -/
def start : Vector UInt32 8 :=
  #v[0x6A09E667, 0xBB67AE85, 0x3C6EF372, 0xA54FF53A, 0x510E527F, 0x9B05688C, 0x1F83D9AB, 0x5BE0CD19]

/-- Where each word of a block comes from in the next round. -/
def schedule : Vector (Fin 16) 16 :=
  #v[2, 6, 3, 10, 7, 0, 4, 13, 1, 11, 12, 5, 9, 14, 15, 8]

/-! ### Flags -/

/-- The first block of a chunk. -/
def chunkStart : UInt32 := 1

/-- The last block of a chunk. -/
def chunkEnd : UInt32 := 2

/-- An inner node of the tree. -/
def parent : UInt32 := 4

/-- The compression whose output is the hash. -/
def root : UInt32 := 8

/-! ### Compression -/

/-- A word turned right by `n` places, for `n` between 1 and 31. -/
def rotateRight (x n : UInt32) : UInt32 := (x >>> n) ||| (x <<< (32 - n))

/-- Mixes two message words into one column or diagonal of the state. -/
def mix (s : Vector UInt32 16) (a b c d : Fin 16) (x y : UInt32) : Vector UInt32 16 :=
  let a₁ := s[a] + s[b] + x
  let d₁ := rotateRight (s[d] ^^^ a₁) 16
  let c₁ := s[c] + d₁
  let b₁ := rotateRight (s[b] ^^^ c₁) 12
  let a₂ := a₁ + b₁ + y
  let d₂ := rotateRight (d₁ ^^^ a₂) 8
  let c₂ := c₁ + d₂
  let b₂ := rotateRight (b₁ ^^^ c₂) 7
  (((s.set a a₂).set b b₂).set c c₂).set d d₂

/-- One round: the four columns, then the four diagonals. -/
def round (s block : Vector UInt32 16) : Vector UInt32 16 :=
  let s := mix s 0 4 8 12 block[0] block[1]
  let s := mix s 1 5 9 13 block[2] block[3]
  let s := mix s 2 6 10 14 block[4] block[5]
  let s := mix s 3 7 11 15 block[6] block[7]
  let s := mix s 0 5 10 15 block[8] block[9]
  let s := mix s 1 6 11 12 block[10] block[11]
  let s := mix s 2 7 8 13 block[12] block[13]
  mix s 3 4 9 14 block[14] block[15]

/-- `n` rounds, with the block's words reordered between them. -/
def rounds : (n : Nat) → (s block : Vector UInt32 16) → Vector UInt32 16
  | 0, s, _ => s
  | n + 1, s, block => rounds n (round s block) (schedule.map (block[·]))

/-- A compression that has not been carried out: its input, without the flags of the root. -/
structure Node where
  chain : Vector UInt32 8
  block : Vector UInt32 16
  counter : UInt64
  length : UInt32
  flags : UInt32

namespace Node

/-- The first half of the compression's output, with `extra` flags. -/
def compress (node : Node) (extra : UInt32) : Vector UInt32 8 :=
  let input : Vector UInt32 16 := node.chain ++
    #v[start[0], start[1], start[2], start[3],
      node.counter.toUInt32, (node.counter >>> 32).toUInt32, node.length, node.flags ||| extra]
  let s := rounds 7 input node.block
  Vector.ofFn fun i : Fin 8 => s[i.val] ^^^ s[i.val + 8]

/-- What a node hands to the node above it. -/
def chainingValue (node : Node) : Vector UInt32 8 := node.compress 0

/-- The node above two others, `left` first. -/
def join (left right : Node) : Node where
  chain := start
  block := left.chainingValue ++ right.chainingValue
  counter := 0
  length := 64
  flags := parent

end Node

/-! ### Chunks -/

/-- Up to 64 bytes as sixteen little-endian words, filled up with zeros. -/
def blockWords (bs : List UInt8) : Vector UInt32 16 :=
  let a := bs.toArray
  let byte (i : Nat) : UInt32 := (a[i]?.getD 0).toUInt32
  Vector.ofFn fun i : Fin 16 =>
    byte (4 * i) ||| byte (4 * i + 1) <<< 8 ||| byte (4 * i + 2) <<< 16 ||| byte (4 * i + 3) <<< 24

/-- The bytes of a full block. -/
def blockBytes : Nat := 64

/-- The bytes of a full chunk. -/
def chunkBytes : Nat := 1024

theorem length_drop_lt {n : Nat} {bs : List UInt8} (positive : 0 < n) (h : bs.drop n ≠ []) :
    (bs.drop n).length < bs.length := by
  have := List.length_pos_iff.2 h
  rw [List.length_drop] at this ⊢
  omega

/-- The open node of the chunk with number `counter` that starts with `bs`, entered with the
chaining value `chain` and the flags `flags` for its first block. -/
def chunkNode (counter : UInt64) (chain : Vector UInt32 8) (flags : UInt32) (bs : List UInt8) :
    Node :=
  let block := blockWords (bs.take blockBytes)
  if h : bs.drop blockBytes = [] then
    ⟨chain, block, counter, UInt32.ofNat bs.length, flags ||| chunkEnd⟩
  else
    have : (bs.drop blockBytes).length < bs.length := length_drop_lt (by decide) h
    chunkNode counter (Node.chainingValue ⟨chain, block, counter, 64, flags⟩) 0
      (bs.drop blockBytes)
termination_by bs.length
decreasing_by exact this

/-- The open nodes of all chunks of `bs`, numbered from `counter`; there is at least one. -/
def leaves (counter : UInt64) (bs : List UInt8) : List Node :=
  let leaf := chunkNode counter start chunkStart (bs.take chunkBytes)
  if h : bs.drop chunkBytes = [] then [leaf]
  else
    have : (bs.drop chunkBytes).length < bs.length := length_drop_lt (by decide) h
    leaf :: leaves (counter + 1) (bs.drop chunkBytes)
termination_by bs.length
decreasing_by exact this

/-! ### The tree -/

/-- The next level of the tree: neighbours are joined, and an odd last node moves up as it is. -/
def level : List Node → List Node
  | left :: right :: rest => left.join right :: level rest
  | nodes => nodes

theorem length_level_le (nodes : List Node) : (level nodes).length ≤ nodes.length := by
  fun_induction level nodes with
  | case1 left right rest ih => simp only [List.length_cons]; omega
  | case2 nodes => exact Nat.le_refl _

/-- The node at the top of the tree over `first` and `others`. -/
def top (first : Node) (others : List Node) : Node :=
  match others with
  | [] => first
  | second :: rest => top (first.join second) (level rest)
termination_by others.length
decreasing_by
  have := length_level_le rest
  simp only [List.length_cons]
  omega

/-- The bytes of a word, least significant first. -/
def wordBytes (w : UInt32) : List UInt8 :=
  [w.toUInt8, (w >>> 8).toUInt8, (w >>> 16).toUInt8, (w >>> 24).toUInt8]

/-- The hash of a byte string. -/
def hash (bs : List UInt8) : List UInt8 :=
  match leaves 0 bs with
  | [] => []
  | first :: others => ((top first others).compress root).toList.flatMap wordBytes

theorem leaves_ne_nil (counter : UInt64) (bs : List UInt8) : leaves counter bs ≠ [] := by
  unfold leaves
  simp only
  split <;> simp

@[simp] theorem length_hash (bs : List UInt8) : (hash bs).length = 32 := by
  unfold hash
  split
  · next h => exact absurd h (leaves_ne_nil 0 bs)
  · simp [List.length_flatMap, wordBytes, List.map_const']

end Collate.Blake3
