import PackageRecipes.Text

/-! Paths as they are written, with names between slashes. -/
namespace PackageRecipes

open Text

/-- A path in the spelling that it was given; nothing is normalised. -/
structure Path where
  text : String
  deriving DecidableEq

namespace Path

def pieces (p : Path) : List String := split '/' p.text

def isAbsolute (p : Path) : Bool := p.text.toList.head? == some '/'

/-- A piece that adds nothing to the path in front of it. -/
def isVoid (piece : String) : Bool := piece = "" || piece = "."

/-- Drops pieces without effect from the end, but never the first piece. -/
def trimPieces (ps : List String) : List String :=
  match ps with
  | [] => []
  | first :: rest => first :: (rest.reverse.dropWhile isVoid).reverse

def ofPieces (absolute : Bool) (ps : List String) : Path :=
  if absolute && ps == [""] then ⟨"/"⟩ else ⟨"/".intercalate ps⟩

/-- The last component, if it names an entry. -/
def fileName? (p : Path) : Option String :=
  match (trimPieces p.pieces).getLast? with
  | some name => if isVoid name || name = ".." then none else some name
  | none => none

/-- The path without its last component. -/
def parent? (p : Path) : Option Path :=
  match trimPieces p.pieces with
  | [] => none
  | [only] => if only = "" then none else some ⟨""⟩
  | first :: rest => some (ofPieces p.isAbsolute (trimPieces (first :: rest.dropLast)))

/-- An absolute second path replaces the first. -/
def join (p q : Path) : Path :=
  if q.isAbsolute || p.text = "" then q
  else if p.text.toList.getLast? == some '/' then ⟨p.text ++ q.text⟩
  else ⟨p.text ++ "/" ++ q.text⟩

instance : HDiv Path String Path := ⟨fun p s => p.join ⟨s⟩⟩

/-- The part of the file name after its last dot, unless the name starts with that dot. -/
def extension? (p : Path) : Option String :=
  match p.fileName? with
  | none => none
  | some name =>
    match (split '.' name).reverse with
    | last :: before :: more => if more.isEmpty && before = "" then none else some last
    | _ => none

/-- The path, its parent, and so on up to the first component; `count` bounds their number. -/
def upward : (count : Nat) → Path → List Path
  | 0, _ => []
  | count + 1, p =>
    match p.parent? with
    | none => [p]
    | some q => p :: upward count q

def ancestors (p : Path) : List Path := p.upward (p.pieces.length + 1)

instance : ToString Path := ⟨text⟩

end Path

end PackageRecipes
