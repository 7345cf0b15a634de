import PackageRecipes.Update

/-! Steps on files that may be refused. -/
namespace PackageRecipes

abbrev FileStep := Update FileTree

namespace FileStep

/-- Looks at the files and leaves them as they are. -/
def inspect {α : Type} (look : FileTree → Except Error α) : FileStep α :=
  ExceptT.mk fun t => (look t, t)

/-- A change that is made as a whole or not at all. -/
def change (action : FileAction) (path : Path) (f : FileTree → Except FileFault FileTree) :
    FileStep Unit :=
  ExceptT.mk fun t =>
    match f t with
    | .error e => (.error (.fileRefused action path e), t)
    | .ok t' => (.ok (), t')

/-- Makes a directory with all that are missing on the way. -/
def makeDirectories (action : FileAction) (path : Path) : FileStep Unit :=
  ExceptT.mk fun t =>
    let (r, t') := t.makeDirectories path
    (attempt action path r, t')

end FileStep

end PackageRecipes
