import PackageRecipes.CommandLine.Run
import PackageRecipes.Shell.Runner

/-! The command line: reads the files that a request is about, runs it, and writes back what it has
changed. -/
namespace PackageRecipes.Main

open CommandLine

/-- Adds a file, or a directory with all that lies below it. -/
partial def load (t : FileTree) (path : Path) : IO FileTree := do
  let place := (← IO.currentDir) / path.text
  if ← place.isDir then
    let mut t := (t.makeDirectories path).2
    for entry in ← place.readDir do
      t ← load t (path / entry.fileName)
    return t
  else if ← place.pathExists then
    let content ← IO.FS.readBinFile path.text
    let t := match path.parent? with
      | some dir => (t.makeDirectories dir).2
      | none => t
    return (t.write path content).toOption.getD t
  else return t

/-- The path that an entry lies at. -/
def pathOf (l : Location) : Path :=
  match l with
  | "/" :: names => ⟨"/" ++ "/".intercalate names⟩
  | names => ⟨"/".intercalate names⟩

/-- Writes the entries that are new or changed; what is gone stays on disk. -/
def store (before after : FileTree) : IO Unit :=
  for (l, e) in after.entries do
    if before.get? l ≠ some e then
      match e with
      | .directory => IO.FS.createDirAll (pathOf l).text
      | .file content => IO.FS.writeBinFile (pathOf l).text content

/-- The variables that settings and builds may ask for. -/
def variableNames : List String :=
  ["PATH", "HOME", "XDG_CONFIG_HOME", Settings.repoVariable, Settings.jobsVariable,
    "LD_LIBRARY_PATH", "LIBRARY_PATH", "CPATH", "CMAKE_PREFIX_PATH", "PKG_CONFIG_PATH", "MANPATH"]

def environment : IO ProcessEnv := do
  let mut env : ProcessEnv := .empty
  for name in variableNames do
    if let some value ← IO.getEnv name then
      env := env.insert name value
  return env

/-- Where the user's configuration files are. -/
def configDir (env : ProcessEnv) : Option Path :=
  ((env.get? "XDG_CONFIG_HOME").filter (·.startsWith "/")).map Path.mk
    <|> (env.get? "HOME").map fun home => Path.mk home / ".config"

/-- Absolute paths among the arguments, alone or after an equals sign. -/
def absolutePaths (args : List String) : List Path :=
  (args.flatMap (Text.split '=')).filterMap fun s => if s.startsWith "/" then some ⟨s⟩ else none

def processors : IO Nat := do
  try
    let text ← IO.FS.readFile "/proc/cpuinfo"
    return max 1 ((text.splitOn "\n").filter (·.startsWith "processor")).length
  catch _ => return 1

def run (args : List String) (r : Request) : IO UInt32 := do
  let env ← environment
  let config := configDir env
  let places := (config.map Settings.fileIn).toList
    ++ absolutePaths (args ++ (env.get? Settings.repoVariable).toList)
  let mut files ← load .empty ⟨"."⟩
  for path in places do
    files ← load files path
  let machine : Machine := ⟨files, env, config, ← processors, .shell env⟩
  let (report, after) := r.run machine
  IO.print report.output
  store files after
  match report.result with
  | .ok () => return 0
  | .error f =>
    IO.eprintln s!"Error: {f.message}"
    return 1

end PackageRecipes.Main

def main (args : List String) : IO UInt32 :=
  match PackageRecipes.CommandLine.parse? args with
  | some r => PackageRecipes.Main.run args r
  | none => do
    IO.eprintln "usage: [--repo DIR] [-v] info|check|deps|order|build|verify ..."
    return 2
