import PackageRecipes.Shell.Format
import PackageRecipes.Shell.Process

/-! The usual small programs on files and text. -/
namespace PackageRecipes.Shell

open Text Process

/-! ## Reading -/

/-- Writes files one after another; without any, what it is given. -/
def cat : Program := fun p =>
  match (options p.args).2 with
  | [] => p.print p.input
  | names => p.forEach names fun p name =>
    if name = "-" then p.print p.input
    else match p.files.read (p.path name) with
      | .ok content => p.print content
      | .error fault => p.complain s!"cat: {name}: {reason fault}" 1

/-- Lists directories, without hidden entries unless they are asked for. -/
def ls : Program := fun p =>
  let (letters, names) := options p.args
  let shown (entry : String) : Bool :=
    letters.contains 'a' || letters.contains 'A' || entry.toList.head? != some '.'
  p.forEach (if names.isEmpty then ["."] else names) fun p name =>
    match p.files.look (p.path name) with
    | .error fault => p.complain s!"ls: cannot access '{name}': {reason fault}" 2
    | .ok (.file _) => p.printLines [name]
    | .ok .directory =>
      match p.files.list (p.path name) with
      | .ok entries => p.printLines (entries.filter shown)
      | .error fault => p.complain s!"ls: cannot open directory '{name}': {reason fault}" 2

/-! ## Changing files -/

def mkdir : Program := fun p =>
  let (letters, names) := options p.args
  p.forEach names fun p name =>
    let complaint (fault : FileFault) : String :=
      s!"mkdir: cannot create directory '{name}': {reason fault}"
    if letters.contains 'p' then
      match p.files.makeDirectories (p.path name) with
      | (.ok (), files) => p.leave files
      | (.error fault, files) => { p.complain (complaint fault) 1 with files }
    else
      match p.files.makeDirectory (p.path name) with
      | .ok files => p.leave files
      | .error fault => p.complain (complaint fault) 1

/-- Makes empty files where there are none. -/
def touch : Program := fun p =>
  p.forEach (options p.args).2 fun p name =>
    if p.files.exists? (p.path name) then p.exit 0
    else match p.files.write (p.path name) ByteArray.empty with
      | .ok files => p.leave files
      | .error fault => p.complain s!"touch: cannot touch '{name}': {reason fault}" 1

/-- The tree without an entry and all that lies below it. -/
def withoutBelow (files : FileTree) (l : Location) : FileTree :=
  ⟨files.entries.filter fun (k, _) => !l.isPrefixOf k⟩

def rm : Program := fun p =>
  let (letters, names) := options p.args
  let recursive := letters.contains 'r' || letters.contains 'R'
  p.forEach names fun p name =>
    match p.files.locate (p.path name) with
    | .error .noSuchFile => absent p letters name
    | .error fault => p.complain s!"rm: cannot remove '{name}': {reason fault}" 1
    | .ok l =>
      match p.files.get? l with
      | none => absent p letters name
      | some (.file _) => p.leave (p.files.remove l)
      | some .directory =>
        if recursive then p.leave (withoutBelow p.files l)
        else p.complain s!"rm: cannot remove '{name}': Is a directory" 1
where
  absent (p : Process) (letters : List Char) (name : String) : Outcome :=
    if letters.contains 'f' then p.exit 0
    else p.complain s!"rm: cannot remove '{name}': No such file or directory" 1

/-- Puts what lies at one location of a tree, and below it, at another location of a second one. -/
def graft (files target : FileTree) (source there : Location) : FileTree :=
  (files.entries.filter fun (k, _) => source.isPrefixOf k).foldl
    (fun t (k, e) => t.put (there ++ k.drop source.length) e) target

/-- A target that is a directory stands for the entry of the same name in it. -/
def targetPath (p : Process) (source target : String) : Path :=
  let there := p.path target
  if p.files.isDirectory there then there / ((Path.mk source).fileName?.getD source) else there

/-- The sources and the target of a copy or a move. -/
def sourcesAndTarget (names : List String) : Option (List String × String) :=
  match names.reverse with
  | target :: source :: rest => some ((source :: rest).reverse, target)
  | _ => none

/-- Copies what a name leads to. -/
def copyOne (recursive : Bool) (target : String) (p : Process) (name : String) : Outcome :=
  match p.files.look (p.path name) with
  | .error fault => p.complain s!"cp: cannot stat '{name}': {reason fault}" 1
  | .ok .directory =>
    if recursive then
      match p.files.locate (p.path name), p.files.locate (targetPath p name target) with
      | .ok source, .ok there => p.leave (graft p.files p.files source there)
      | _, .error fault => p.complain s!"cp: cannot create directory '{target}': {reason fault}" 1
      | .error fault, _ => p.complain s!"cp: cannot stat '{name}': {reason fault}" 1
    else p.complain s!"cp: -r not specified; omitting directory '{name}'" 1
  | .ok (.file content) =>
    match p.files.write (targetPath p name target) content with
    | .ok files => p.leave files
    | .error fault => p.complain s!"cp: cannot create regular file '{target}': {reason fault}" 1

def cp : Program := fun p =>
  let (letters, names) := options p.args
  match sourcesAndTarget names with
  | none => p.complain "cp: missing file operand" 1
  | some (sources, target) =>
    p.forEach sources (copyOne (['r', 'R', 'a'].any letters.contains) target)

def mv : Program := fun p =>
  match sourcesAndTarget (options p.args).2 with
  | none => p.complain "mv: missing file operand" 1
  | some (sources, target) =>
    p.forEach sources fun p name =>
      match p.files.look (p.path name), p.files.locate (p.path name),
          p.files.locate (targetPath p name target) with
      | .ok _, .ok source, .ok there =>
        if source = there then p.complain s!"mv: '{name}' and '{target}' are the same file" 1
        else p.leave (graft p.files (withoutBelow p.files source) source there)
      | .error fault, _, _ | _, .error fault, _ =>
        p.complain s!"mv: cannot stat '{name}': {reason fault}" 1
      | _, _, .error fault =>
        p.complain s!"mv: cannot move '{name}' to '{target}': {reason fault}" 1

/-! ## Conditions -/

def number? (s : String) : Option Int :=
  match (trimmed s).toInt? with
  | some n => some n
  | none => none

/-- Whether a condition of `test` holds; none if it is no condition. -/
def holds? (p : Process) : List String → Option Bool
  | [] => some false
  | [s] => some (s ≠ "")
  | "!" :: rest => (holds? p rest).map (!·)
  | ["-n", s] => some (s ≠ "")
  | ["-z", s] => some (s = "")
  | ["-e", name] => some (p.files.exists? (p.path name))
  | ["-f", name] => some (p.files.isFile (p.path name))
  | ["-d", name] => some (p.files.isDirectory (p.path name))
  | ["-r", name] | ["-w", name] => some (p.files.exists? (p.path name))
  | ["-s", name] => some ((p.files.read (p.path name)).toOption.any (·.size > 0))
  | [a, "=", b] => some (a = b)
  | [a, "!=", b] => some (a ≠ b)
  | [a, op, b] =>
    match number? a, number? b with
    | some m, some n =>
      match op with
      | "-eq" => some (m = n)
      | "-ne" => some (m ≠ n)
      | "-lt" => some (m < n)
      | "-le" => some (m ≤ n)
      | "-gt" => some (m > n)
      | "-ge" => some (m ≥ n)
      | _ => none
    | _, _ => none
  | _ => none

def testArguments (p : Process) (args : List String) : Outcome :=
  match holds? p args with
  | some true => p.exit 0
  | some false => p.exit 1
  | none => p.exit 2

/-! ## Lookup -/

/-- The programs by their names. -/
def programs : List (String × Program) :=
  [("cat", cat), ("cp", cp), ("echo", fun p => p.print ⟨(echo p.args).toArray⟩),
    ("false", fun p => p.exit 1), ("ls", ls), ("mkdir", mkdir), ("mv", mv),
    ("printf", fun p =>
      match p.args with
      | [] => p.exit 2
      | text :: args => p.print ⟨(format text args).toArray⟩),
    ("pwd", fun p => p.printLines [p.cwd.text]), ("rm", rm), ("sleep", fun p => p.exit 0),
    ("test", fun p => testArguments p p.args), ("[", fun p => testArguments p p.args.dropLast),
    ("touch", touch), ("true", fun p => p.exit 0)]

/-- The directories that hold the programs. -/
def programDirs : List String := ["/bin", "/usr/bin", "/bin/", "/usr/bin/"]

/-- The path of a program: the one that it is called by, or that in the first directory of the
search path that holds it. -/
def programPath? (env : NameMap String) (known : List String) (name : String) : Option Path :=
  if name.toList.contains '/' then
    if known.any fun k => programDirs.any fun dir => name = (Path.mk dir / k).text then some ⟨name⟩
    else none
  else if known.contains name then
    ((split ':' ((env.get? "PATH").getD "/bin:/usr/bin")).find? programDirs.contains).map
      fun dir => Path.mk dir / name
  else none

/-- The last component of a program's path. -/
def baseName (name : String) : String := ((split '/' name).getLast?).getD name

end PackageRecipes.Shell
