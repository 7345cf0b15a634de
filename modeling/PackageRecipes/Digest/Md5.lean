import PackageRecipes.Digest.Block

/-! MD5, for archives that publish no better digest. -/
namespace PackageRecipes.Digest.Md5

abbrev Word := BitVec 32

/-- The four words that a block is mixed into. -/
structure Chain where
  (a b c d : Word)

def sines : List Nat :=
  [0xd76aa478, 0xe8c7b756, 0x242070db, 0xc1bdceee, 0xf57c0faf, 0x4787c62a, 0xa8304613, 0xfd469501,
    0x698098d8, 0x8b44f7af, 0xffff5bb1, 0x895cd7be, 0x6b901122, 0xfd987193, 0xa679438e, 0x49b40821,
    0xf61e2562, 0xc040b340, 0x265e5a51, 0xe9b6c7aa, 0xd62f105d, 0x02441453, 0xd8a1e681, 0xe7d3fbc8,
    0x21e1cde6, 0xc33707d6, 0xf4d50d87, 0x455a14ed, 0xa9e3e905, 0xfcefa3f8, 0x676f02d9, 0x8d2a4c8a,
    0xfffa3942, 0x8771f681, 0x6d9d6122, 0xfde5380c, 0xa4beea44, 0x4bdecfa9, 0xf6bb4b60, 0xbebfbc70,
    0x289b7ec6, 0xeaa127fa, 0xd4ef3085, 0x04881d05, 0xd9d4d039, 0xe6db99e5, 0x1fa27cf8, 0xc4ac5665,
    0xf4292244, 0x432aff97, 0xab9423a7, 0xfc93a039, 0x655b59c3, 0x8f0ccc92, 0xffeff47d, 0x85845dd1,
    0x6fa87e4f, 0xfe2ce6e0, 0xa3014314, 0x4e0811a1, 0xf7537e82, 0xbd3af235, 0x2ad7d2bb, 0xeb86d391]

def rotations : List Nat :=
  [[7, 12, 17, 22], [5, 9, 14, 20], [4, 11, 16, 23], [6, 10, 15, 21]].flatMap fun turns =>
    turns ++ turns ++ turns ++ turns

/-- The function of round `i` and the word of the block that the round takes. -/
def select (i : Nat) (x : Chain) : Word × Nat :=
  match i / 16 with
  | 0 => ((x.b &&& x.c) ||| (~~~x.b &&& x.d), i)
  | 1 => ((x.d &&& x.b) ||| (~~~x.d &&& x.c), (5 * i + 1) % 16)
  | 2 => (x.b ^^^ x.c ^^^ x.d, (3 * i + 5) % 16)
  | _ => (x.c ^^^ (x.b ||| ~~~x.d), (7 * i) % 16)

def step (words : Array Word) (x : Chain) (round : Nat × Nat × Nat) : Chain :=
  let (i, sine, turn) := round
  let (f, k) := select i x
  let mixed := x.a + f + BitVec.ofNat _ sine + words.getD k 0
  ⟨x.d, x.b + mixed.rotateLeft turn, x.b, x.c⟩

def compress (x : Chain) (block : List UInt8) : Chain :=
  let words := ((groups 4 16 block).map fun g => BitVec.ofNat 32 (ofLittleEndian g)).toArray
  let y := ((List.range 64).zip (sines.zip rotations)).foldl (step words) x
  ⟨x.a + y.a, x.b + y.b, x.c + y.c, x.d + y.d⟩

def output (x : Chain) : List UInt8 :=
  [x.a, x.b, x.c, x.d].flatMap fun w => littleEndian 4 w.toNat

def blockHash : BlockHash Chain where
  blockSize := 64
  blockSize_pos := by decide
  start := ⟨0x67452301, 0xefcdab89, 0x98badcfe, 0x10325476⟩
  compress := compress
  lengthField n := littleEndian 8 (8 * n)
  output := output

end PackageRecipes.Digest.Md5
