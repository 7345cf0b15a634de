import PackageRecipes.Files.Path

/-! A file system as a value: what every path leads to, and how each operation changes it. -/
namespace PackageRecipes

/-- Why an operation on files fails. -/
inductive FileFault where
  | noSuchFile
  | fileExists
  | notDirectory
  | isDirectory
  | invalidText
  | notRegular
  deriving DecidableEq, Repr

def FileFault.message : FileFault → String
  | .noSuchFile => "No such file or directory (os error 2)"
  | .fileExists => "File exists (os error 17)"
  | .notDirectory => "Not a directory (os error 20)"
  | .isDirectory => "Is a directory (os error 21)"
  | .invalidText => "stream did not contain valid UTF-8"
  | .notRegular => "the source path is neither a regular file nor a symlink to a regular file"

inductive Entry where
  | file (content : ByteArray)
  | directory

instance : DecidableEq Entry
  | .directory, .directory => isTrue rfl
  | .file a, .file b =>
    if h : a.data = b.data then isTrue (congrArg Entry.file (ByteArray.ext h))
    else isFalse fun he => h (congrArg ByteArray.data (Entry.file.inj he))
  | .file _, .directory => isFalse nofun
  | .directory, .file _ => isFalse nofun

/-- The names from the working directory to an entry; the names of an absolute path follow `/`. -/
abbrev Location := List String

/-- The entries below the working directory, and those that absolute paths lead to. -/
structure FileTree where
  entries : List (Location × Entry)
  deriving DecidableEq

namespace FileTree

def empty : FileTree := ⟨[]⟩

/-- The working directory and the root of absolute paths are always there. -/
def isBase (l : Location) : Bool := l == [] || l == ["/"]

def find (l : Location) : List (Location × Entry) → Option Entry
  | [] => none
  | (k, e) :: rest => if l = k then some e else find l rest

def get? (t : FileTree) (l : Location) : Option Entry :=
  if isBase l then some .directory else find l t.entries

def replace (l : Location) (e : Entry) : List (Location × Entry) → List (Location × Entry)
  | [] => [(l, e)]
  | (k, old) :: rest => if l = k then (k, e) :: rest else (k, old) :: replace l e rest

/-- The tree with `e` at `l`, in place of what was there. -/
def put (t : FileTree) (l : Location) (e : Entry) : FileTree := ⟨replace l e t.entries⟩

def remove (t : FileTree) (l : Location) : FileTree := ⟨t.entries.filter fun x => x.1 ≠ l⟩

theorem find_replace (l m : Location) (e : Entry) (xs : List (Location × Entry)) :
    find m (replace l e xs) = if m = l then some e else find m xs := by
  induction xs with
  | nil => simp [replace, find]
  | cons x rest ih =>
    obtain ⟨k, old⟩ := x
    simp only [replace]
    by_cases h : l = k
    · subst h; by_cases hm : m = l <;> simp [find, hm]
    · by_cases hm : m = k
      · have : ¬ k = l := fun he => h he.symm
        simp [find, h, hm, this]
      · simp [find, h, hm, ih]

theorem get?_put {t : FileTree} {l : Location} (h : isBase l = false) (m : Location) (e : Entry) :
    (t.put l e).get? m = if m = l then some e else t.get? m := by
  simp only [get?, put, find_replace]
  by_cases hm : m = l
  · subst hm; simp [h]
  · simp [hm]

/-! ## Following paths -/

/-- The directory itself or the one above it, rather than an entry in it. -/
def isRelativeStep (name : String) : Bool := name = "." || name = ".."

/-- The directory that a step leads to. -/
def enter (t : FileTree) (here : Location) (name : String) : Except FileFault Location :=
  if name = "." then .ok here
  else if name = ".." then .ok (if isBase here then here else here.dropLast)
  else match t.get? (here ++ [name]) with
    | some .directory => .ok (here ++ [name])
    | some (.file _) => .error .notDirectory
    | none => .error .noSuchFile

/-- Where the components lead; the last one may name an entry that is not there. -/
def follow (t : FileTree) (here : Location) : List String → Except FileFault Location
  | [] => .ok here
  | [name] => if isRelativeStep name then t.enter here name else .ok (here ++ [name])
  | name :: rest =>
    match t.enter here name with
    | .error e => .error e
    | .ok there => t.follow there rest

/-- Where a path leads, whether or not there is something. -/
def reach (t : FileTree) (p : Path) : Except FileFault Location :=
  if p.text = "" then .error .noSuchFile
  else t.follow (if p.isAbsolute then ["/"] else []) (p.pieces.filter (· ≠ ""))

/-- A path that ends in a slash asks for a directory. -/
def asksDirectory (p : Path) : Bool := p.pieces.getLast? == some ""

/-- Where a path leads, and no file where the path asks for a directory. -/
def locate (t : FileTree) (p : Path) : Except FileFault Location :=
  match t.reach p with
  | .error e => .error e
  | .ok l =>
    match t.get? l with
    | some (.file _) => if asksDirectory p then .error .notDirectory else .ok l
    | _ => .ok l

def look (t : FileTree) (p : Path) : Except FileFault Entry :=
  match t.locate p with
  | .error e => .error e
  | .ok l => (t.get? l).elim (.error .noSuchFile) .ok

def isFile (t : FileTree) (p : Path) : Bool :=
  match t.look p with
  | .ok (.file _) => true
  | _ => false

def isDirectory (t : FileTree) (p : Path) : Bool :=
  match t.look p with
  | .ok .directory => true
  | _ => false

def exists? (t : FileTree) (p : Path) : Bool := (t.look p).toOption.isSome

/-! ## Reading -/

def read (t : FileTree) (p : Path) : Except FileFault ByteArray :=
  match t.look p with
  | .error e => .error e
  | .ok .directory => .error .isDirectory
  | .ok (.file content) => .ok content

def readText (t : FileTree) (p : Path) : Except FileFault String :=
  match t.read p with
  | .error e => .error e
  | .ok content => (String.fromUTF8? content).elim (.error .invalidText) .ok

/-- The names of what lies directly below a location, in ascending order. -/
def namesBelow (t : FileTree) (l : Location) : List String :=
  (t.entries.filterMap fun (k, _) =>
    if k.length = l.length + 1 && l.isPrefixOf k then k.getLast? else none).mergeSort (· ≤ ·)

/-- The names in a directory, in ascending order. -/
def list (t : FileTree) (p : Path) : Except FileFault (List String) :=
  match t.locate p with
  | .error e => .error e
  | .ok l =>
    match t.get? l with
    | none => .error .noSuchFile
    | some (.file _) => .error .notDirectory
    | some .directory => .ok (t.namesBelow l)

/-! ## Writing -/

/-- Makes one directory in an existing one. -/
def makeDirectory (t : FileTree) (p : Path) : Except FileFault FileTree :=
  match t.reach p with
  | .error e => .error e
  | .ok l => if (t.get? l).isSome then .error .fileExists else .ok (t.put l .directory)

/-- Makes the first of the directories, after those that follow it as far as they are missing.
Directories that were made before a failure stay. -/
def makeFirst (t : FileTree) : List Path → Except FileFault Unit × FileTree
  | [] => (.ok (), t)
  | p :: above =>
    if p.text = "" then (.ok (), t)
    else match t.makeDirectory p with
      | .ok t' => (.ok (), t')
      | .error .noSuchFile =>
        match t.makeFirst above with
        | (.error e, t') => (.error e, t')
        | (.ok (), t') =>
          match t'.makeDirectory p with
          | .ok t'' => (.ok (), t'')
          | .error e => (if t'.isDirectory p then .ok () else .error e, t')
      | .error e => (if t.isDirectory p then .ok () else .error e, t)

/-- Makes a directory with all that are missing on the way; one that is there is no fault. -/
def makeDirectories (t : FileTree) (p : Path) : Except FileFault Unit × FileTree :=
  t.makeFirst p.ancestors

/-- Where a file can be written: at a file or in an existing directory. -/
def writable (t : FileTree) (p : Path) : Except FileFault Location :=
  match t.locate p with
  | .error e => .error e
  | .ok l =>
    match t.get? l with
    | some .directory => .error .isDirectory
    | some (.file _) => .ok l
    | none => if asksDirectory p then .error .isDirectory else .ok l

def write (t : FileTree) (p : Path) (content : ByteArray) : Except FileFault FileTree :=
  (t.writable p).map fun l => t.put l (.file content)

def append (t : FileTree) (p : Path) (content : ByteArray) : Except FileFault FileTree :=
  match t.writable p with
  | .error e => .error e
  | .ok l =>
    match t.get? l with
    | some (.file old) => .ok (t.put l (.file (old ++ content)))
    | _ => .ok (t.put l (.file content))

/-- Opens the source, empties the target, then carries the content over; a file copied onto
itself ends up empty. -/
def copy (t : FileTree) (source target : Path) : Except FileFault FileTree :=
  match t.look source with
  | .error e => .error e
  | .ok .directory => .error .notRegular
  | .ok (.file _) =>
    match t.write target ByteArray.empty with
    | .error e => .error e
    | .ok emptied =>
      match emptied.read source with
      | .error e => .error e
      | .ok content => emptied.write target content

end FileTree

end PackageRecipes
