/-! Wildcard patterns for one file name. -/
namespace PackageRecipes

/-- A set of characters between brackets: single characters and ranges. -/
abbrev CharRanges := List (Char × Char)

namespace Glob

inductive Token where
  | char (c : Char)
  | anyChar
  /-- Any number of characters. -/
  | anySequence
  | within (ranges : CharRanges)
  | except (ranges : CharRanges)
  deriving DecidableEq

inductive Fault where
  | wildcards
  | recursiveWildcards
  | invalidRange
  deriving DecidableEq

/-- A fault with the number of the character near which it lies. -/
structure Error where
  position : Nat
  fault : Fault
  deriving DecidableEq

def Fault.message : Fault → String
  | .wildcards => "wildcards are either regular `*` or recursive `**`"
  | .recursiveWildcards => "recursive wildcards must form a single path component"
  | .invalidRange => "invalid range pattern"

def Error.message (e : Error) : String :=
  s!"Pattern syntax error near position {e.position}: {e.fault.message}"

/-- Single characters and `a-z` ranges, from left to right. -/
def ranges : List Char → CharRanges
  | a :: '-' :: b :: rest => (a, b) :: ranges rest
  | a :: rest => (a, a) :: ranges rest
  | [] => []

/-- The characters between brackets and what follows them; the first is never the closing one. -/
def bracketed : List Char → Option (List Char × List Char)
  | [] => none
  | first :: rest =>
    if ']' ∈ rest then
      some (first :: rest.takeWhile (· ≠ ']'), (rest.dropWhile (· ≠ ']')).drop 1)
    else none

/-- The set after an opening bracket, and what follows it. -/
def bracketToken : List Char → Option (Token × List Char)
  | '!' :: rest => (bracketed rest).map fun (cs, after) => (.except (ranges cs), after)
  | rest => (bracketed rest).map fun (cs, after) => (.within (ranges cs), after)

theorem bracketed_length {cs : List Char} {r : List Char × List Char} (h : bracketed cs = some r) :
    r.2.length < cs.length := by
  cases cs with
  | nil => simp [bracketed] at h
  | cons c rest =>
    simp only [bracketed] at h
    split at h
    · cases h
      have h₁ := (List.dropWhile_suffix (l := rest) (· ≠ ']')).length_le
      simp only [List.length_drop, List.length_cons]
      omega
    · simp at h

theorem bracketToken_length {cs : List Char} {r : Token × List Char}
    (h : bracketToken cs = some r) : r.2.length < cs.length + 1 := by
  unfold bracketToken at h
  split at h <;>
  · obtain ⟨v, hv, rfl⟩ := Option.map_eq_some_iff.1 h
    have := bracketed_length hv
    simp only [List.length_cons] at this ⊢
    omega

/-- Reads a pattern from its character number `at_` on. Two stars stand only alone. -/
def tokens (at_ : Nat) (cs : List Char) : Except Error (List Token) :=
  match cs with
  | [] => .ok []
  | '*' :: '*' :: '*' :: _ => .error ⟨at_ + 2, .wildcards⟩
  | '*' :: '*' :: rest =>
    if at_ ≠ 0 then .error ⟨at_ - 1, .recursiveWildcards⟩
    else if rest.isEmpty then .ok [.anySequence]
    else .error ⟨2, .recursiveWildcards⟩
  | '*' :: rest => (tokens (at_ + 1) rest).map (.anySequence :: ·)
  | '?' :: rest => (tokens (at_ + 1) rest).map (.anyChar :: ·)
  | '[' :: rest =>
    match _h : bracketToken rest with
    | none => .error ⟨at_, .invalidRange⟩
    | some (token, after) =>
      (tokens (at_ + 1 + (rest.length - after.length)) after).map (token :: ·)
  | c :: rest => (tokens (at_ + 1) rest).map (.char c :: ·)
termination_by cs.length
decreasing_by
  all_goals first
    | have h := bracketToken_length _h
      simp only [List.length_cons] at h ⊢
      omega
    | (simp only [List.length_cons]; omega)

def parse (pattern : String) : Except Error (List Token) := tokens 0 pattern.toList

def inRanges (c : Char) (rs : CharRanges) : Bool := rs.any fun (a, b) => a ≤ c && c ≤ b

/-- One character against a token that stands for one. -/
def Token.admits : Token → Char → Bool
  | .char d, c => c = d
  | .anyChar, _ => true
  | .anySequence, _ => false
  | .within rs, c => inRanges c rs
  | .except rs, c => !inRanges c rs

def isMatch : List Token → List Char → Bool
  | [], cs => cs.isEmpty
  | .anySequence :: ts, [] => isMatch ts []
  | .anySequence :: ts, c :: cs => isMatch ts (c :: cs) || isMatch (.anySequence :: ts) cs
  | _ :: _, [] => false
  | t :: ts, c :: cs => t.admits c && isMatch ts cs
termination_by ts cs => (ts.length, cs.length)

/-- The text holds a character that makes it a pattern. -/
def isPattern (name : String) : Bool := name.toList.any fun c => c = '*' || c = '?' || c = '['

end Glob

end PackageRecipes
