import PackageRecipes.NameSet
import PackageRecipes.Files.Glob
import PackageRecipes.Shell.Programs
import PackageRecipes.Shell.Script

/-! Running shell scripts. -/
namespace PackageRecipes.Shell

open Text

/-- A shell in the middle of a script. -/
structure State where
  /-- The name that the shell goes by in its complaints. -/
  name : String
  args : List String
  cwd : Path
  vars : NameMap String
  exported : NameSet
  files : FileTree
  status : Nat
  stopsOnFailure : Bool
  written : List (Stream × ByteArray)
  /-- The exit code after the end; a killed shell has none. -/
  ended : Option (Option Nat)

namespace State

/-- The search path of a shell that is given none. -/
def defaultPath : String := "/usr/local/sbin:/usr/local/bin:/usr/sbin:/usr/bin:/sbin:/bin"

def start (name : String) (args : List String) (p : Process) : State :=
  let vars := if p.env.contains "PATH" then p.env else p.env.insert "PATH" defaultPath
  ⟨name, args, p.cwd, vars, .ofList p.env.keys, p.files, 0, false, [], none⟩

/-- The variables that programs inherit. -/
def env (s : State) : NameMap String :=
  ⟨s.vars.entries.filter fun (k, _) => s.exported.contains k⟩

def outcome (s : State) : Outcome := ⟨s.files, s.written, s.ended.getD (some s.status)⟩

/-- What the shell's own process number looks like; no other process is known. -/
def ownNumber : String := "1"

/-! ## Expansion -/

/-- The value of a parameter by its plain name. -/
def parameter? (s : State) (name : String) : Option String :=
  match name with
  | "?" => some s.status.repr
  | "#" => some s.args.length.repr
  | "$" => some ownNumber
  | "@" | "*" => some (" ".intercalate s.args)
  | "0" => some s.name
  | "!" | "-" => some ""
  | _ =>
    if name.toList.all Char.isDigit && name ≠ "" then
      s.args[valueInBase 10 name.toList - 1]?
    else s.vars.get? name

/-- The value of a parameter, with a word of its own for one that is missing or empty. -/
def value (s : State) (text : String) : String :=
  let name := text.toList.takeWhile Scan.isNameChar
  let given := s.parameter? (String.ofList name)
  match text.toList.drop name.length with
  | ':' :: '-' :: word => if given.getD "" = "" then String.ofList word else given.getD ""
  | '-' :: word => if name.isEmpty then "" else given.getD (String.ofList word)
  | ':' :: '+' :: word => if given.getD "" = "" then "" else String.ofList word
  | '+' :: word => if given.isSome then String.ofList word else ""
  | _ => (s.parameter? text).getD ""

/-- Characters of a field, each with a mark that says whether it was quoted. -/
abbrev Field := List (Char × Bool)

/-- Finished fields, and the one that is being put together. -/
structure Fields where
  finished : List Field
  current : Option Field

namespace Fields

def add (f : Fields) (cs : List Char) (quoted : Bool) : Fields :=
  { f with current := some (f.current.getD [] ++ cs.map (·, quoted)) }

def cut (f : Fields) : Fields := ⟨f.finished ++ f.current.toList, none⟩

/-- Adds a value that white space divides. -/
def addDivided (f : Fields) (value : String) : Fields :=
  value.toList.foldl
    (fun f c => if c = ' ' || c = '\t' || c = '\n' then f.cut else f.add [c] false) f

/-- Adds values as fields of their own. -/
def addSeparate (f : Fields) : List String → Fields
  | [] => f
  | [v] => f.add v.toList true
  | v :: rest => ((f.add v.toList true).cut).addSeparate rest

end Fields

def expandPart (s : State) (f : Fields) : Part → Fields
  | .text content quoted => f.add content quoted
  | .parameter "@" true => f.addSeparate s.args
  | .parameter name true => f.add (s.value name).toList true
  | .parameter name false => f.addDivided (s.value name)

def fieldText (f : Field) : String := String.ofList (f.map Prod.fst)

/-- The names that a field with unquoted wildcards stands for; the wildcards are in its last
component. Without any such name the field stands for itself. -/
def matching (s : State) (f : Field) : List String :=
  let last := (f.reverse.takeWhile fun x => x.1 ≠ '/').reverse
  let before := fieldText (f.take (f.length - last.length))
  if !last.any fun (c, quoted) => !quoted && ['*', '?', '['].contains c then [fieldText f]
  else
    let pattern := last.flatMap fun (c, quoted) =>
      if quoted && ['*', '?', '['].contains c then ['[', c, ']'] else [c]
    let dir := if before = "" then s.cwd else s.cwd.join ⟨before⟩
    match Glob.parse (String.ofList pattern), s.files.list dir with
    | .ok tokens, .ok names =>
      let hidden := last.head?.any (·.1 = '.')
      let found := names.filter fun n =>
        (hidden || n.toList.head? != some '.') && Glob.isMatch tokens n.toList
      if found.isEmpty then [fieldText f] else found.map (before ++ ·)
    | _, _ => [fieldText f]

/-- The words of a command after expansion. -/
def expand (s : State) (w : Word) : List String :=
  (w.foldl s.expandPart ⟨[], none⟩).cut.finished.flatMap s.matching

/-- A word that is not divided. -/
def expandWhole (s : State) (w : Word) : String :=
  String.join (w.map fun
    | .text content _ => String.ofList content
    | .parameter name _ => s.value name)

/-- The name and the value of an assignment. -/
def assignment? : Word → Option (String × Word)
  | .text content false :: rest =>
    match cutAt '=' content with
    | some (c :: name, value) =>
      if Scan.isNameStart c && name.all Scan.isNameChar then
        some (String.ofList (c :: name), .text value false :: rest)
      else none
    | _ => none
  | _ => none

/-! ## Redirections -/

/-- Where a stream leads. -/
inductive Sink where
  | inherited (stream : Stream)
  | file (path : Path)
  | nowhere

/-- Where the streams of a command lead, and what it can read. -/
structure Channels where
  output : Sink
  complaint : Sink
  input : ByteArray

def Channels.standard (input : ByteArray) : Channels :=
  ⟨.inherited .output, .inherited .complaint, input⟩

def Channels.to (c : Channels) : Stream → Sink
  | .output => c.output
  | .complaint => c.complaint

/-- Leads the stream of a descriptor elsewhere. -/
def Channels.lead (c : Channels) (descriptor : Nat) (sink : Sink) : Channels :=
  match descriptor with
  | 1 => { c with output := sink }
  | 2 => { c with complaint := sink }
  | _ => c

/-- Writes a chunk to where it leads. -/
def deliver (s : State) (sink : Sink) (content : ByteArray) : State :=
  match sink with
  | .nowhere => s
  | .inherited stream => { s with written := s.written ++ [(stream, content)] }
  | .file path => { s with files := (s.files.append path content).toOption.getD s.files }

def deliverAll (s : State) (c : Channels) (chunks : List (Stream × ByteArray)) : State :=
  chunks.foldl (fun s (stream, content) => s.deliver (c.to stream) content) s

/-- Opens one redirection; a file to write is made, and emptied unless it is to be extended. -/
def openOne (s : State) (c : Channels) (r : Redirect) : Except String (Channels × FileTree) :=
  let name := s.expandWhole r.target
  let path := if name = "" then ⟨""⟩ else s.cwd.join ⟨name⟩
  let cannot (verb missing : String) (fault : FileFault) : String :=
    let why := if fault = .noSuchFile || fault = .notDirectory then missing else reason fault
    s!"cannot {verb} {name}: {why}"
  match r.kind with
  | .duplicate =>
    let sink := match name with
      | "1" => c.output
      | "2" => c.complaint
      | _ => .nowhere
    .ok (c.lead (r.descriptor.getD 1) sink, s.files)
  | .read =>
    if name = "/dev/null" then .ok ({ c with input := ByteArray.empty }, s.files)
    else match s.files.read path with
      | .ok content => .ok ({ c with input := content }, s.files)
      | .error fault => .error (cannot "open" "No such file" fault)
  | kind =>
    let descriptor := r.descriptor.getD 1
    if name = "/dev/null" then .ok (c.lead descriptor .nowhere, s.files)
    else
      let opened :=
        if kind = .append then s.files.append path ByteArray.empty
        else s.files.write path ByteArray.empty
      match opened with
      | .ok files => .ok (c.lead descriptor (.file path), files)
      | .error fault => .error (cannot "create" "Directory nonexistent" fault)

def openAll (s : State) (c : Channels) : List Redirect → Except String Channels × State
  | [] => (.ok c, s)
  | r :: rest =>
    match s.openOne c r with
    | .error message => (.error message, s)
    | .ok (c, files) => { s with files }.openAll c rest

/-! ## Commands within the shell -/

def complaintLine (s : State) (message : String) : ByteArray := s!"{s.name}: 1: {message}\n".toUTF8

/-- A command that goes wrong in the shell itself. -/
def refuse (s : State) (c : Channels) (message : String) (status : Nat) : State :=
  { s.deliver c.complaint (s.complaintLine message) with status }

def assign (s : State) (name value : String) : State := { s with vars := s.vars.insert name value }

/-- The number that an exit code is written as. -/
def exitCode? (text : String) : Option Nat :=
  let digits := ((dropPrefix? ['+'] text.toList).getD text.toList)
  let n := valueInBase 10 digits
  if !digits.isEmpty && digits.all Char.isDigit && n < 2147483648 then some (n % 256) else none

/-- Ends the shell with a code. -/
def exit (s : State) (c : Channels) : List String → State
  | [] => { s with ended := some (some s.status) }
  | text :: _ =>
    match exitCode? text with
    | some code => { s with ended := some (some code) }
    | none => { s.refuse c s!"exit: Illegal number: {text}" 2 with ended := some (some 2) }

def changeDirectory (s : State) (c : Channels) (args : List String) : State :=
  let name := args.headD ((s.vars.get? "HOME").getD "")
  let path := s.cwd.join ⟨name⟩
  if name = "" then { s with status := 0 }
  else if s.files.isDirectory path then { s with cwd := path, status := 0 }
  else s.refuse c s!"cd: can't cd to {name}" 2

/-- Marks variables for programs, and assigns those that come with a value. -/
def exportAll (s : State) (args : List String) : State :=
  args.foldl
    (fun s arg =>
      match cut? '=' arg with
      | some (name, value) => { s.assign name value with exported := s.exported.insert name }
      | none => { s with exported := s.exported.insert arg })
    { s with status := 0 }

/-- Only the shell itself can be killed. -/
def kill (s : State) (c : Channels) (args : List String) : State :=
  if args.contains "-0" then { s with status := 0 }
  else if args.contains ownNumber then { s with ended := some none }
  else s.refuse c "kill: No such process" 1

/-- Options and arguments of the shell. -/
def setOptions (s : State) : List String → State
  | "--" :: args => { s with args, status := 0 }
  | "-e" :: rest => { s with stopsOnFailure := true }.setOptions rest
  | "+e" :: rest => { s with stopsOnFailure := false }.setOptions rest
  | _ => { s with status := 0 }

/-- The commands that change the shell. -/
def builtins : List (String × (State → Channels → List String → State)) :=
  [(":", fun s _ _ => { s with status := 0 }), ("cd", changeDirectory), ("exit", exit),
    ("export", fun s _ args => s.exportAll args), ("kill", kill), ("return", exit),
    ("set", fun s _ args => s.setOptions args),
    ("shift", fun s _ _ => { s with args := s.args.drop 1, status := 0 }),
    ("unset", fun s _ args =>
      { s with vars := ⟨s.vars.entries.filter fun (k, _) => !args.contains k⟩, status := 0 }),
    ("wait", fun s _ _ => { s with status := 0 })]

/-! ## Running -/

/-- Programs that are part of the shell and need no search. -/
def innate : List String := ["[", "echo", "false", "printf", "pwd", "test", "true"]

/-- Runs a program with variables of its own. -/
def runProgram (known : List (String × Program)) (s : State) (c : Channels)
    (vars : List (String × String)) (name : String) (args : List String) : State :=
  let extended (m : NameMap String) := vars.foldl (fun m (k, v) => m.insert k v) m
  let found :=
    innate.contains name || (programPath? (extended s.vars) (known.map Prod.fst) name).isSome
  match (known.find? (·.1 == baseName name)).filter fun _ => found with
  | none => s.refuse c s!"{name}: not found" 127
  | some (_, program) =>
    let o := program ⟨args, s.cwd, extended s.env, c.input, s.files⟩
    { { s with files := o.files }.deliverAll c o.written with status := o.code.getD 137 }

/-- Prints what a name stands for: a command of the shell by its name, a program by its path. -/
def printPlace (known : List (String × Program)) (s : State) (c : Channels) (name : String) :
    State :=
  let place :=
    if innate.contains name || builtins.any (·.1 == name) then some name
    else (programPath? s.vars (known.map Prod.fst) name).map Path.text
  match place with
  | some text => { s.deliver c.output (text ++ "\n").toUTF8 with status := 0 }
  | none => { s with status := 127 }

/-- Runs the words of a command, with assignments in front of them. -/
def runWords (known : List (String × Program)) (s : State) (c : Channels)
    (vars : List (String × String)) : List String → State
  | [] => vars.foldl (fun s (k, v) => s.assign k v) { s with status := 0 }
  | "command" :: "-v" :: name :: _ => s.printPlace known c name
  | "command" :: words => s.runWords known c vars words
  | ["exec"] => { s with status := 0 }
  | "exec" :: words =>
    let s := s.runWords known c vars words
    { s with ended := s.ended <|> some (some s.status) }
  | name :: args =>
    match builtins.find? (·.1 == name) with
    | some (_, run) => run (vars.foldl (fun s (k, v) => s.assign k v) s) c args
    | none => s.runProgram known c vars name args

/-- Runs a simple command. -/
def runSimple (known : List (String × Program)) (s : State) (input : ByteArray) (c : Simple) :
    State :=
  let assignments := (c.words.map assignment?).takeWhile Option.isSome
  let vars := (assignments.filterMap id).map fun (k, w) => (k, s.expandWhole w)
  let words := (c.words.drop assignments.length).flatMap s.expand
  match s.openAll (.standard input) c.redirects with
  | (.error message, s) => s.refuse (.standard input) message 2
  | (.ok channels, s) => s.runWords known channels vars words

/-- What has been written to the standard output since, and the state without it. -/
def takeOutput (s : State) (before : List (Stream × ByteArray)) : ByteArray × State :=
  let new := s.written.drop before.length
  (new.foldl (fun b (stream, content) => if stream = .output then b ++ content else b)
      ByteArray.empty,
    { s with written := before ++ new.filter fun (stream, _) => stream = .complaint })

/-- The state after a shell inside this one: files, output and status come from the inner one, and
all else stays. -/
def around (s inner : State) : State :=
  let status := match inner.ended with
    | some (some code) => code
    | _ => inner.status
  let killed := inner.ended.any Option.isNone
  { s with
    files := inner.files
    written := inner.written
    status
    ended := if killed then some none else s.ended }

/-- Runs the commands of a pipeline, each in a shell of its own; each reads what the one before it
has written. -/
def runPipeline (known : List (String × Program)) (s : State) (input : ByteArray) :
    List Simple → State
  | [] => s
  | [c] => s.around (s.runSimple known input c)
  | c :: rest =>
    let (output, s') := (s.around (s.runSimple known input c)).takeOutput s.written
    runPipeline known s' output rest

def runItem (known : List (String × Program)) (s : State) (input : ByteArray) (i : Item) : State :=
  let s := match i.commands with
    | [c] => s.runSimple known input c
    | cs => runPipeline known s input cs
  if i.negated && s.ended.isNone then { s with status := if s.status = 0 then 1 else 0 } else s

/-- Whether a pipeline runs after one with this status. -/
def Connector.admits (c : Connector) (status : Nat) : Bool :=
  match c with
  | .always => true
  | .onSuccess => status = 0
  | .onFailure => status ≠ 0

/-- A failure that the shell is to stop at: of the last pipeline in its list. -/
def stops (s : State) (i : Item) (rest : Script) : Bool :=
  s.stopsOnFailure && s.status ≠ 0 && !i.negated
    && (rest.head?.all fun next => next.connector = .always)

/-- Runs pipelines one after another, until the shell ends. -/
def runScript (known : List (String × Program)) (input : ByteArray) (s : State) : Script → State
  | [] => s
  | i :: rest =>
    if s.ended.isSome then s
    else if Connector.admits i.connector s.status then
      let s := s.runItem known input i
      if s.stops i rest then { s with ended := some (some s.status) }
      else runScript known input s rest
    else runScript known input s rest

end State

/-- Runs the text of a script. -/
def interpret (known : List (String × Program)) (name : String) (args : List String)
    (stopsOnFailure : Bool) (text : String) : Program := fun p =>
  let s := { State.start name args p with stopsOnFailure }
  match Script.parse text with
  | .error fault => p.complain s!"{name}: 1: {fault.message}" 2
  | .ok script => (s.runScript known p.input script).outcome

/-- The shell as a program: it takes a script as an argument, from a file or from its input. -/
def shellWith (known : List (String × Program)) : Program := fun p =>
  match p.args with
  | [] => interpret known "sh" [] false (String.fromUTF8? p.input |>.getD "") p
  | first :: rest =>
    match first.toList with
    | '-' :: letters =>
      if letters.contains 'c' then
        match rest with
        | [] => p.complain "sh: 0: -c requires an argument" 2
        | [text] => interpret known "sh" [] (letters.contains 'e') text p
        | text :: name :: args => interpret known name args (letters.contains 'e') text p
      else
        match rest with
        | [] => p.exit 0
        | file :: args => fromFile file args (letters.contains 'e') p
    | _ => fromFile first rest false p
where
  fromFile (file : String) (args : List String) (stopsOnFailure : Bool) : Program := fun p =>
    match p.files.readText (p.path file) with
    | .ok text => interpret known file args stopsOnFailure text p
    | .error _ => p.complain s!"sh: 0: cannot open {file}: No such file" 2

/-- Names that the shell goes by. -/
def shellNames : List String := ["sh", "dash"]

/-- All programs, with shells that start one another down to a depth. -/
def programsTo : (depth : Nat) → List (String × Program)
  | 0 => programs
  | depth + 1 =>
    let inner := shellWith (programsTo depth)
    shellNames.map (·, inner) ++ programs

/-- How deep shells start one another. -/
def shellDepth : Nat := 32

def allPrograms : List (String × Program) := programsTo shellDepth

end PackageRecipes.Shell
