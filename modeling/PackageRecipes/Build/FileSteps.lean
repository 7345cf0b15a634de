import PackageRecipes.Files.Step
import PackageRecipes.Regex.Replace

/-! Changes to files that a recipe asks for. -/
namespace PackageRecipes.FileStep

open Text

/-- Makes the directory that a path lies in. -/
def makeParent (p : Path) : FileStep Unit :=
  match p.parent? with
  | none => pure ()
  | some dir => makeDirectories .create dir

/-- Copies a file, into directories that are made as needed. -/
def copyFile (source target : Path) : FileStep Unit := do
  makeParent target
  change .copy source fun t => t.copy source target

/-- A text with a pattern replaced in every line, by the replacement as it is written. -/
def editText (pattern : Regex) (replacement text : String) : String :=
  let lines := (pieces (· = '\n') text.toList).map (pattern.replaceAll fun _ => replacement.toList)
  String.ofList (['\n'].intercalate lines)

/-- Replaces a pattern in every line of a file; says whether the file changed. -/
def editFile (p : Path) (pattern : Regex) (replacement : String) : FileStep Bool := do
  let text ← inspect fun t => attempt .read p (t.readText p)
  let edited := editText pattern replacement text
  if edited = text then return false
  else
    change .write p fun t => t.write p edited.toUTF8
    return true

/-- Lines, each ended by a line break. -/
def linesText (lines : List String) : String := String.join (lines.map (· ++ "\n"))

/-- What goes in front of appended lines so that they start on a line of their own. -/
def separator (existing : String) : String :=
  if existing = "" || existing.toList.getLast? = some '\n' then "" else "\n"

/-- The text that is in a file already; a missing file has none. -/
def existingText (p : Path) (t : FileTree) : Except Error String :=
  match t.readText p with
  | .ok text => .ok text
  | .error .noSuchFile => .ok ""
  | .error e => .error (.fileRefused .read p e)

/-- Appends lines to a file, or makes a new file of them. -/
def appendLines (p : Path) (lines : List String) (create : Bool) : FileStep Unit := do
  makeParent p
  if create then change .openFile p fun t => t.write p (linesText lines).toUTF8
  else
    let existing ← inspect (existingText p)
    change .openFile p fun t => t.append p (separator existing ++ linesText lines).toUTF8

/-- The files that a path stands for; its last component may be a pattern. -/
def filesLike (p : Path) (t : FileTree) : Except Error (List Path) :=
  let name := p.fileName?.getD ""
  if !Glob.isPattern name then
    if t.exists? p then .ok [p] else .error (.notFound (.artifact p))
  else
    let dir := p.parent?.getD ⟨"."⟩
    match Glob.parse name with
    | .error e => .error (.malformed (.glob name e))
    | .ok tokens =>
      match attempt .read dir (t.list dir) with
      | .error e => .error e
      | .ok names =>
        let found := (names.filter fun n =>
          t.isFile (dir / n) && Glob.isMatch tokens n.toList).map fun n => dir / n
        if found.isEmpty then .error (.notFound (.filesLike p)) else .ok found

end PackageRecipes.FileStep
