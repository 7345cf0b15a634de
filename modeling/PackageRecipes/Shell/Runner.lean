import PackageRecipes.Build.Command
import PackageRecipes.Text.Utf8
import PackageRecipes.Shell.Interpreter

/-! Running the commands of a build as processes. -/
namespace PackageRecipes

namespace Shell

/-- The bytes that a process wrote to a stream. -/
def Outcome.wrote (o : Outcome) (stream : Stream) : List UInt8 :=
  (o.written.filter (·.1 = stream)).flatMap fun (_, content) => content.toList

/-- Makes the working directory if there is nothing. -/
def ensureDirectory (dir : Path) : FileStep Unit := do
  if ← FileStep.inspect fun t => .ok (t.exists? dir) then return ()
  else FileStep.makeDirectories .create dir

/-- Refuses a command that no process can be started for. -/
def findProgram (i : Invocation) (env : NameMap String) (files : FileTree) :
    Except Error Program :=
  let refused (fault : FileFault) : Error := .fileRefused .run ⟨i.program⟩ fault
  match files.look i.cwd with
  | .error fault => .error (refused fault)
  | .ok (.file _) => .error (refused .notDirectory)
  | .ok .directory =>
    let found := programPath? env (allPrograms.map Prod.fst) i.program
    match found.bind fun _ => allPrograms.find? (·.1 == baseName i.program) with
    | some (_, program) => .ok program
    | none => .error (refused .noSuchFile)

/-- The failure of a command that ended with another exit code than zero. -/
def failureOf (i : Invocation) (o : Outcome) : Error :=
  let complaint := Text.trimEnd (Text.decodeUtf8 (o.wrote .complaint))
  .commandFailed i.commandLine o.code (String.ofList complaint)

def execute (inherited : ProcessEnv) (i : Invocation) : FileStep Unit := do
  ensureDirectory i.cwd
  let env := i.env.entries.foldl (fun (m : NameMap String) (k, v) => m.insert k v) inherited
  let program ← FileStep.inspect (findProgram i env)
  let o ← ExceptT.mk fun t =>
    let o := program ⟨i.args, i.cwd, env, ByteArray.empty, t⟩
    (.ok o, o.files)
  if o.code = some 0 then return () else throw (failureOf i o)

end Shell

/-- Runs each command as a process, in the variables inherited from this one and its own. -/
def Runner.shell (inherited : ProcessEnv) : Runner :=
  ⟨false, fun _ i files => (Shell.execute inherited i).runOn files⟩

end PackageRecipes
