/-! Hash functions that take their input block by block, with the input's length at its end. -/
namespace PackageRecipes.Digest

/-- How one block is taken into the chaining value, and how the last block ends. -/
structure BlockHash (Chain : Type) where
  blockSize : Nat
  blockSize_pos : 0 < blockSize
  start : Chain
  compress : Chain → List UInt8 → Chain
  /-- The closing field for an input of so many bytes. -/
  lengthField : Nat → List UInt8
  output : Chain → List UInt8

/-- What has been taken in: whole blocks in the chaining value, the rest still pending. -/
structure Progress (Chain : Type) where
  chain : Chain
  pending : List UInt8
  length : Nat

namespace BlockHash

variable {Chain : Type} (h : BlockHash Chain)

/-- Takes in as many whole blocks as there are and gives back the rest. -/
def absorb (chain : Chain) (data : List UInt8) : Chain × List UInt8 :=
  if (data.take h.blockSize).length < h.blockSize then (chain, data)
  else absorb (h.compress chain (data.take h.blockSize)) (data.drop h.blockSize)
termination_by data.length
decreasing_by
  have := h.blockSize_pos
  simp_all
  omega

def begin : Progress Chain := ⟨h.start, [], 0⟩

def update (p : Progress Chain) (data : List UInt8) : Progress Chain :=
  let (chain, rest) := h.absorb p.chain (p.pending ++ data)
  ⟨chain, rest, p.length + data.length⟩

/-- The bytes that fill the last block: a one bit, zeros and the length field. -/
def padding (length : Nat) : List UInt8 :=
  let field := h.lengthField length
  let used := (length + 1 + field.length) % h.blockSize
  0x80 :: (List.replicate ((h.blockSize - used) % h.blockSize) 0 ++ field)

def finish (p : Progress Chain) : List UInt8 :=
  h.output (h.absorb p.chain (p.pending ++ h.padding p.length)).1

def hash (data : List UInt8) : List UInt8 := h.finish (h.update h.begin data)

/-- Takes in piece after piece, up to an empty one. -/
def drain (p : Progress Chain) : List (List UInt8) → Progress Chain
  | [] => p
  | piece :: rest => if piece.isEmpty then p else drain (h.update p piece) rest

/-- The digest of data that arrives in pieces; an empty piece tells that there are no more. -/
def hashPieces (pieces : List (List UInt8)) : List UInt8 := h.finish (h.drain h.begin pieces)

end BlockHash

/-! ## Words as bytes -/

/-- A number as so many bytes, highest first. -/
def bigEndian : (count : Nat) → Nat → List UInt8
  | 0, _ => []
  | count + 1, n => UInt8.ofNat (n / 256 ^ count) :: bigEndian count n

def littleEndian (count n : Nat) : List UInt8 := (bigEndian count n).reverse

def ofBigEndian (bytes : List UInt8) : Nat := bytes.foldl (fun n b => 256 * n + b.toNat) 0

def ofLittleEndian (bytes : List UInt8) : Nat := ofBigEndian bytes.reverse

/-- The consecutive groups of `size` bytes, as many as asked for. -/
def groups (size : Nat) : (count : Nat) → List UInt8 → List (List UInt8)
  | 0, _ => []
  | count + 1, bytes => bytes.take size :: groups size count (bytes.drop size)

end PackageRecipes.Digest
