import PackageRecipes.Text

/-! Version labels: numbered releases such as `2.03.00` and named branches such as `develop`. -/
namespace PackageRecipes

open Text

/-- One comparable piece of a label. -/
inductive Segment where
  | number (value : Nat)
  | text (letters : String)
  deriving DecidableEq, Repr

namespace Segment

/-- Branch names that rank above every release, lowest first. -/
def branches : List String := ["stable", "trunk", "head", "master", "main", "develop"]

def branchRank : Segment → Option Nat
  | .number _ => none
  | .text s => branches.findIdx? (· == s)

def isNumber : Segment → Bool
  | .number _ => true
  | .text _ => false

/-- Letters rank below numbers, and numbers below branch names. -/
def compare (a b : Segment) : Ordering :=
  match a.branchRank, b.branchRank with
  | some i, some j => Ord.compare i j
  | some _, none => .gt
  | none, some _ => .lt
  | none, none =>
    match a, b with
    | .number m, .number n => Ord.compare m n
    | .text s, .text t => Ord.compare s t
    | .number _, .text _ => .gt
    | .text _, .number _ => .lt

/-- A run of digits is a number when it fits in 64 bits; any other run stays as it is written. -/
def ofRun (run : List Char) : Segment :=
  if run.all Char.isDigit && valueInBase 10 run < wordBound then .number (valueInBase 10 run)
  else .text (String.ofList run)

/-- Numbers in decimal, letters as they are. -/
def render : Segment → String
  | .number n => n.repr
  | .text s => s

end Segment

/-- A label as it is written, with the segments that it is compared by. -/
structure Version where
  label : String
  segments : List Segment
  deriving DecidableEq, Repr

namespace Version

inductive Fault where
  | empty
  | unexpectedCharacter (c : Char)
  | noSegments
  | crossedBounds (lower upper : Version)
  deriving DecidableEq

/-- A text that is no version, or no range of versions. -/
structure Error where
  input : String
  fault : Fault
  deriving DecidableEq

def Fault.message : Fault → String
  | .empty => "empty version"
  | .unexpectedCharacter c => s!"unexpected character '{c}'"
  | .noSegments => "no version segments"
  | .crossedBounds l h => s!"lower bound {l.label} is above upper bound {h.label}"

def Error.message (e : Error) : String := s!"invalid version '{e.input}': {e.fault.message}"

def isSeparator (c : Char) : Bool := c = '.' || c = '-' || c = '_'

def isLabelChar (c : Char) : Bool := isAlphanumeric c || isSeparator c

/-- The runs of digits and of other characters in a piece of a label. Of the run under way, `current` has been read, and
`numeric` says whether it is one of digits. -/
def splitRuns (current : List Char) (numeric : Option Bool) : List Char → List (List Char)
  | [] => if current.isEmpty then [] else [current]
  | c :: rest =>
    if numeric.any (· != c.isDigit) then current :: splitRuns [c] (some c.isDigit) rest
    else splitRuns (current ++ [c]) (some c.isDigit) rest

/-- The runs in the pieces between the separators, in order. -/
def runs (cs : List Char) : List (List Char) :=
  ((pieces isSeparator cs).filter (!·.isEmpty)).flatMap (splitRuns [] none)

def segmentsOf (cs : List Char) : List Segment := (runs cs).map Segment.ofRun

/-- Reads a label; white space around it is dropped. -/
def parse (s : String) : Except Error Version :=
  let label := trim s.toList
  if label.isEmpty then .error ⟨s, .empty⟩
  else match label.find? fun c => !isLabelChar c with
    | some c => .error ⟨s, .unexpectedCharacter c⟩
    | none =>
      match segmentsOf label with
      | [] => .error ⟨s, .noSegments⟩
      | segments => .ok ⟨String.ofList label, segments⟩

/-- Every segment is a number: a release, not a branch. -/
def isNumeric (v : Version) : Bool := v.segments.all Segment.isNumber

/-- The label starts with the name of a branch that ranks above every release. -/
def isDevelopment (v : Version) : Bool := v.segments.head?.any fun s => s.branchRank.isSome

/-- `1.2` is a segment prefix of `1.2.7`. -/
def isPrefixOf (v w : Version) : Bool := v.segments.isPrefixOf w.segments

/-- Segment by segment; of two labels that agree as far as the shorter goes, it is the lower. -/
def compare (v w : Version) : Ordering := List.compareLex Segment.compare v.segments w.segments

/-- Equal segments, however the labels are written. -/
def same (v w : Version) : Bool := v.segments == w.segments

instance : ToString Version := ⟨label⟩

end Version

end PackageRecipes
