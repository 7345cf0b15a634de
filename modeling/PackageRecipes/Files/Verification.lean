import PackageRecipes.Error

/-! Files against the checksums that pin their content. -/
namespace PackageRecipes

/-- Reads a file through and compares its digest with the checksum. -/
def Checksum.verify (c : Checksum) (files : FileTree) (path : Path) : Except Error Unit :=
  match files.read path with
  | .error fault => .error (.file fault)
  | .ok content =>
    let actual : Checksum := ⟨c.algorithm, hashReads c.algorithm (readsOf content.toList)⟩
    if actual = c then .ok () else .error (.checksumMismatch path c.render actual.render)

end PackageRecipes
