import PackageRecipes.Checksum
import PackageRecipes.Version.Basic

/-! Where the source of a version comes from. -/
namespace PackageRecipes

inductive GitReference where
  | branch (name : String)
  | tag (name : String)
  | commit (name : String)
  deriving DecidableEq

namespace GitReference

def kind : GitReference → String
  | .branch _ => "branch"
  | .tag _ => "tag"
  | .commit _ => "commit"

def name : GitReference → String
  | .branch n | .tag n | .commit n => n

end GitReference

inductive SourceLocator where
  | archive (url : String)
  | git (url : String) (reference : GitReference) (submodules : Bool)
  deriving DecidableEq

namespace SourceLocator

def isArchive : SourceLocator → Bool
  | .archive _ => true
  | .git _ _ _ => false

def url : SourceLocator → String
  | .archive u | .git u _ _ => u

def render : SourceLocator → String
  | .archive u => u
  | .git u r submodules =>
    s!"{u} ({r.kind} {r.name})" ++ (if submodules then " with submodules" else "")

end SourceLocator

structure VersionDecl where
  version : Version
  locator : SourceLocator
  integrity : Option Checksum
  preferred : Bool

def VersionDecl.label (d : VersionDecl) : String := d.version.label

end PackageRecipes
