import PackageRecipes.Text
import PackageRecipes.Digest.Sha2
import PackageRecipes.Digest.Md5

/-! Checksums that pin the content of a source archive. -/
namespace PackageRecipes

open Text

inductive HashAlgorithm where
  | sha256 | sha512 | md5
  deriving DecidableEq, Repr

/-- Why a text is no checksum. -/
inductive ChecksumError where
  | unknownAlgorithm (name : String)
  | invalidLength (expected got : Nat)
  | invalidHex (digest : String)
  deriving DecidableEq

def ChecksumError.message : ChecksumError → String
  | .unknownAlgorithm name => s!"unknown hash algorithm: {name}"
  | .invalidLength expected got => s!"invalid digest length: expected {expected}, got {got}"
  | .invalidHex digest => s!"invalid hex in digest: {digest}"

namespace HashAlgorithm

/-- Bytes in a digest. -/
def outputLength : HashAlgorithm → Nat
  | .sha256 => 32
  | .sha512 => 64
  | .md5 => 16

/-- Hex digits in a written digest. -/
def hexLength (a : HashAlgorithm) : Nat := 2 * a.outputLength

def name : HashAlgorithm → String
  | .sha256 => "sha256"
  | .sha512 => "sha512"
  | .md5 => "md5"

/-- Reads a name in any letter case. -/
def parse (s : String) : Except ChecksumError HashAlgorithm :=
  match String.ofList (s.toList.map Char.toLower) with
  | "sha256" | "sha-256" => .ok .sha256
  | "sha512" | "sha-512" => .ok .sha512
  | "md5" => .ok .md5
  | _ => .error (.unknownAlgorithm s)

def digest : HashAlgorithm → List UInt8 → List UInt8
  | .sha256, data => Digest.sha256.blockHash.hash data
  | .sha512, data => Digest.sha512.blockHash.hash data
  | .md5, data => Digest.Md5.blockHash.hash data

def digestPieces : HashAlgorithm → List (List UInt8) → List UInt8
  | .sha256, pieces => Digest.sha256.blockHash.hashPieces pieces
  | .sha512, pieces => Digest.sha512.blockHash.hashPieces pieces
  | .md5, pieces => Digest.Md5.blockHash.hashPieces pieces

end HashAlgorithm

/-! ## Digests in writing -/

def hexDigit (n : Nat) : Char := "0123456789abcdef".toList.getD n '0'

/-- Two lowercase digits for each byte. -/
def hexText (bytes : List UInt8) : String :=
  String.ofList (bytes.flatMap fun b => [hexDigit (b.toNat / 16), hexDigit (b.toNat % 16)])

def hashBytes (algorithm : HashAlgorithm) (data : List UInt8) : String :=
  hexText (algorithm.digest data)

/-- The digest of what a source yields, read after read, until one yields nothing. -/
def hashReads (algorithm : HashAlgorithm) (reads : List (List UInt8)) : String :=
  hexText (algorithm.digestPieces reads)

/-- The most that one read of a file yields. -/
def readSize : Nat := 8192

/-- A file's content as successive reads yield it; the last one is at the end and yields nothing. -/
def readsOf (data : List UInt8) : List (List UInt8) :=
  if data.isEmpty then [[]] else data.take readSize :: readsOf (data.drop readSize)
termination_by data.length
decreasing_by
  cases data with
  | nil => simp_all
  | cons b rest => simp only [List.length_drop, List.length_cons, readSize]; omega

/-- A digest with its algorithm; the digits are lowercase. -/
structure Checksum where
  algorithm : HashAlgorithm
  value : String
  deriving DecidableEq

namespace Checksum

/-- Accepts a digest of the right length in hex digits of either case. -/
def ofDigest (algorithm : HashAlgorithm) (digest : String) : Except ChecksumError Checksum :=
  let digits := digest.toList
  if byteLength digits ≠ algorithm.hexLength then
    .error (.invalidLength algorithm.hexLength (byteLength digits))
  else if !digits.all isHexDigit then .error (.invalidHex digest)
  else .ok ⟨algorithm, String.ofList (digits.map Char.toLower)⟩

/-- Reads `algorithm:digest`; a bare digest is a SHA-256 one. -/
def parse (s : String) : Except ChecksumError Checksum :=
  let text := trim s.toList
  match cutAt ':' text with
  | some (algorithm, digest) => do
    ofDigest (← HashAlgorithm.parse (String.ofList algorithm)) (String.ofList digest)
  | none => ofDigest .sha256 (String.ofList text)

def render (c : Checksum) : String := c.algorithm.name ++ ":" ++ c.value

def isMatch (c : Checksum) (data : List UInt8) : Bool := hashBytes c.algorithm data == c.value

end Checksum

end PackageRecipes
