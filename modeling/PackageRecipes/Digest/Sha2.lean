import PackageRecipes.Digest.Block

/-! SHA-256 and SHA-512: one construction over words of 32 and of 64 bits. -/
namespace PackageRecipes.Digest

/-- The word size and constants in which the members of the family differ. -/
structure Sha2 where
  wordBytes : Nat
  wordBytes_pos : 0 < wordBytes
  rounds : List Nat
  start : List Nat
  /-- Two rotations and a shift for each schedule function. -/
  schedule₀ : Nat × Nat × Nat
  schedule₁ : Nat × Nat × Nat
  /-- Three rotations for each round function. -/
  round₀ : Nat × Nat × Nat
  round₁ : Nat × Nat × Nat

namespace Sha2

variable (s : Sha2)

abbrev Word := BitVec (8 * s.wordBytes)

/-- The eight words that a block is mixed into. -/
structure Chain where
  (a b c d e f g h : Word s)

def mixSchedule (k : Nat × Nat × Nat) (x : Word s) : Word s :=
  x.rotateRight k.1 ^^^ x.rotateRight k.2.1 ^^^ (x >>> k.2.2)

def mixRound (k : Nat × Nat × Nat) (x : Word s) : Word s :=
  x.rotateRight k.1 ^^^ x.rotateRight k.2.1 ^^^ x.rotateRight k.2.2

/-- The block's sixteen words, followed by those derived from them: one for each round. -/
def messageWords (block : List UInt8) : Array (Word s) :=
  let first : Array (Word s) :=
    ((groups s.wordBytes 16 block).map fun g => BitVec.ofNat _ (ofBigEndian g)).toArray
  (List.range (s.rounds.length - 16)).foldl
    (fun w i =>
      w.push (s.mixSchedule s.schedule₁ (w.getD (i + 14) 0) + w.getD (i + 9) 0
        + s.mixSchedule s.schedule₀ (w.getD (i + 1) 0) + w.getD i 0))
    first

def step (x : Chain s) (kw : Nat × Word s) : Chain s :=
  let choice := (x.e &&& x.f) ^^^ (~~~x.e &&& x.g)
  let majority := (x.a &&& x.b) ^^^ (x.a &&& x.c) ^^^ (x.b &&& x.c)
  let t₁ := x.h + s.mixRound s.round₁ x.e + choice + BitVec.ofNat _ kw.1 + kw.2
  let t₂ := s.mixRound s.round₀ x.a + majority
  ⟨t₁ + t₂, x.a, x.b, x.c, x.d + t₁, x.e, x.f, x.g⟩

def compress (x : Chain s) (block : List UInt8) : Chain s :=
  let y := (s.rounds.zip (s.messageWords block).toList).foldl s.step x
  ⟨x.a + y.a, x.b + y.b, x.c + y.c, x.d + y.d, x.e + y.e, x.f + y.f, x.g + y.g, x.h + y.h⟩

def initial : Chain s :=
  let w (i : Nat) : Word s := BitVec.ofNat _ (s.start.getD i 0)
  ⟨w 0, w 1, w 2, w 3, w 4, w 5, w 6, w 7⟩

def output (x : Chain s) : List UInt8 :=
  [x.a, x.b, x.c, x.d, x.e, x.f, x.g, x.h].flatMap fun w => bigEndian s.wordBytes w.toNat

/-- Sixteen words make a block, and two words hold the length in bits. -/
def blockHash : BlockHash (Chain s) where
  blockSize := 16 * s.wordBytes
  blockSize_pos := Nat.mul_pos (by decide) s.wordBytes_pos
  start := s.initial
  compress := s.compress
  lengthField n := bigEndian (2 * s.wordBytes) (8 * n)
  output := s.output

end Sha2

def sha256 : Sha2 where
  wordBytes := 4
  wordBytes_pos := by decide
  schedule₀ := (7, 18, 3)
  schedule₁ := (17, 19, 10)
  round₀ := (2, 13, 22)
  round₁ := (6, 11, 25)
  start := [0x6a09e667, 0xbb67ae85, 0x3c6ef372, 0xa54ff53a,
    0x510e527f, 0x9b05688c, 0x1f83d9ab, 0x5be0cd19]
  rounds := [0x428a2f98, 0x71374491, 0xb5c0fbcf, 0xe9b5dba5, 0x3956c25b, 0x59f111f1, 0x923f82a4, 0xab1c5ed5,
    0xd807aa98, 0x12835b01, 0x243185be, 0x550c7dc3, 0x72be5d74, 0x80deb1fe, 0x9bdc06a7, 0xc19bf174,
    0xe49b69c1, 0xefbe4786, 0x0fc19dc6, 0x240ca1cc, 0x2de92c6f, 0x4a7484aa, 0x5cb0a9dc, 0x76f988da,
    0x983e5152, 0xa831c66d, 0xb00327c8, 0xbf597fc7, 0xc6e00bf3, 0xd5a79147, 0x06ca6351, 0x14292967,
    0x27b70a85, 0x2e1b2138, 0x4d2c6dfc, 0x53380d13, 0x650a7354, 0x766a0abb, 0x81c2c92e, 0x92722c85,
    0xa2bfe8a1, 0xa81a664b, 0xc24b8b70, 0xc76c51a3, 0xd192e819, 0xd6990624, 0xf40e3585, 0x106aa070,
    0x19a4c116, 0x1e376c08, 0x2748774c, 0x34b0bcb5, 0x391c0cb3, 0x4ed8aa4a, 0x5b9cca4f, 0x682e6ff3,
    0x748f82ee, 0x78a5636f, 0x84c87814, 0x8cc70208, 0x90befffa, 0xa4506ceb, 0xbef9a3f7, 0xc67178f2]

def sha512 : Sha2 where
  wordBytes := 8
  wordBytes_pos := by decide
  schedule₀ := (1, 8, 7)
  schedule₁ := (19, 61, 6)
  round₀ := (28, 34, 39)
  round₁ := (14, 18, 41)
  start := [0x6a09e667f3bcc908, 0xbb67ae8584caa73b, 0x3c6ef372fe94f82b, 0xa54ff53a5f1d36f1,
    0x510e527fade682d1, 0x9b05688c2b3e6c1f, 0x1f83d9abfb41bd6b, 0x5be0cd19137e2179]
  rounds := [0x428a2f98d728ae22, 0x7137449123ef65cd, 0xb5c0fbcfec4d3b2f, 0xe9b5dba58189dbbc,
    0x3956c25bf348b538, 0x59f111f1b605d019, 0x923f82a4af194f9b, 0xab1c5ed5da6d8118,
    0xd807aa98a3030242, 0x12835b0145706fbe, 0x243185be4ee4b28c, 0x550c7dc3d5ffb4e2,
    0x72be5d74f27b896f, 0x80deb1fe3b1696b1, 0x9bdc06a725c71235, 0xc19bf174cf692694,
    0xe49b69c19ef14ad2, 0xefbe4786384f25e3, 0x0fc19dc68b8cd5b5, 0x240ca1cc77ac9c65,
    0x2de92c6f592b0275, 0x4a7484aa6ea6e483, 0x5cb0a9dcbd41fbd4, 0x76f988da831153b5,
    0x983e5152ee66dfab, 0xa831c66d2db43210, 0xb00327c898fb213f, 0xbf597fc7beef0ee4,
    0xc6e00bf33da88fc2, 0xd5a79147930aa725, 0x06ca6351e003826f, 0x142929670a0e6e70,
    0x27b70a8546d22ffc, 0x2e1b21385c26c926, 0x4d2c6dfc5ac42aed, 0x53380d139d95b3df,
    0x650a73548baf63de, 0x766a0abb3c77b2a8, 0x81c2c92e47edaee6, 0x92722c851482353b,
    0xa2bfe8a14cf10364, 0xa81a664bbc423001, 0xc24b8b70d0f89791, 0xc76c51a30654be30,
    0xd192e819d6ef5218, 0xd69906245565a910, 0xf40e35855771202a, 0x106aa07032bbd1b8,
    0x19a4c116b8d2d0c8, 0x1e376c085141ab53, 0x2748774cdf8eeb99, 0x34b0bcb5e19b48a8,
    0x391c0cb3c5c95a63, 0x4ed8aa4ae3418acb, 0x5b9cca4f7763e373, 0x682e6ff3d6b2b8a3,
    0x748f82ee5defb2fc, 0x78a5636f43172f60, 0x84c87814a1f0ab72, 0x8cc702081a6439ec,
    0x90befffa23631e28, 0xa4506cebde82bde9, 0xbef9a3f7b2c67915, 0xc67178f2e372532b,
    0xca273eceea26619c, 0xd186b8c721c0c207, 0xeada7dd6cde0eb1e, 0xf57d4f7fee6ed178,
    0x06f067aa72176fba, 0x0a637dc5a2c898a6, 0x113f9804bef90dae, 0x1b710b35131c471b,
    0x28db77f523047d84, 0x32caab7b40c72493, 0x3c9ebe0a15c9bebc, 0x431d67c49c100d4c,
    0x4cc5d4becb3e42b6, 0x597f299cfc657e2a, 0x5fcb6fab3ad6faec, 0x6c44198c4a475817]

end PackageRecipes.Digest
