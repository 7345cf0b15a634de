import PackageRecipes.Version.Basic

/-! Sets of acceptable versions: one version with all that it prefixes, or an interval. -/
namespace PackageRecipes

open Text

inductive VersionRange where
  /-- The version itself and anything that it prefixes. -/
  | exact (v : Version)
  /-- Both bounds count, and the upper one counts with all that it prefixes. -/
  | between (lower upper : Option Version)
  deriving DecidableEq, Repr

namespace VersionRange

def any : VersionRange := .between none none

def parseBound (cs : List Char) : Except Version.Error (Option Version) :=
  let text := trim cs
  if text.isEmpty then .ok none else (Version.parse (String.ofList text)).map some

/-- Reads `v`, `lo:hi`, `lo:`, `:hi` or `:`; an upper bound below the lower one is refused unless
it prefixes the lower one. -/
def parse (s : String) : Except Version.Error VersionRange := do
  let text := trim s.toList
  match cutAt ':' text with
  | none => return .exact (← Version.parse (String.ofList text))
  | some (before, after) =>
    let lower ← parseBound before
    let upper ← parseBound after
    match lower, upper with
    | some l, some h =>
      if l.compare h = .gt && !h.isPrefixOf l then
        throw ⟨String.ofList text, .crossedBounds l h⟩
      else return .between lower upper
    | _, _ => return .between lower upper

def contains : VersionRange → Version → Bool
  | .exact v, w => v.isPrefixOf w
  | .between lower upper, w =>
    lower.all (fun l => w.compare l != .lt) &&
      upper.all (fun h => w.compare h != .gt || h.isPrefixOf w)

def render : VersionRange → String
  | .exact v => v.label
  | .between lower upper => (lower.elim "" Version.label) ++ ":" ++ (upper.elim "" Version.label)

/-- Equal up to the spelling of the versions. -/
def same : VersionRange → VersionRange → Bool
  | .exact v, .exact w => v.same w
  | .between l h, .between l' h' => sameBound l l' && sameBound h h'
  | _, _ => false
where
  sameBound : Option Version → Option Version → Bool
    | none, none => true
    | some v, some w => v.same w
    | _, _ => false

/-- Reads ranges separated by commas; empty pieces are skipped. -/
def parseList (s : String) : Except Version.Error (List VersionRange) :=
  (((pieces (· = ',') s.toList).map trim).filter (!·.isEmpty)).mapM fun p => parse (String.ofList p)

instance : ToString VersionRange := ⟨render⟩

end VersionRange

end PackageRecipes
