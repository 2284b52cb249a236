import FpgaProject.Shell.Builtin.Variables
import FpgaProject.Shell.Condition
import FpgaProject.Shell.Records.Running
import FpgaProject.Shell.Redirection
import FpgaProject.Shell.Utility.Edit
import FpgaProject.Shell.Utility.Files
import FpgaProject.Shell.Utility.Lines
import FpgaProject.Shell.Utility.Words

/-!
Starting programs.

A name with a slash in it is a path; another one is looked for in the directories of a list. What may
be run is a program that is installed or a script, whose first line says what runs it. A program works
on the files of the script and prints to its channels; a shell runs a script of its own.
-/

namespace FpgaProject.Shell

/-! ### Programs -/

inductive Program where
  | shell
  | environment
  | utility (u : Utility)

def program? (name : String) : Option Program :=
  match name with
  | "sh" | "dash" => some .shell
  | "env" => some .environment
  | name => (utility? name).map .utility
where
  utility? : String → Option Utility
    | "true" | "sleep" => some (nothing 0)
    | "false" => some (nothing 1)
    | "echo" => some echo
    | "printf" => some printf
    | "test" => some test
    | "[" => some bracket
    | "expr" => some expr
    | "basename" => some basename
    | "dirname" => some dirname
    | "touch" => some touch
    | "mkdir" => some mkdir
    | "mkfifo" => some mkfifo
    | "rm" => some rm
    | "cp" => some (transferring false "rR")
    | "mv" => some (transferring true "f")
    | "ls" => some ls
    | "find" => some find
    | "cat" => some cat
    | "head" => some head
    | "tail" => some tail
    | "wc" => some wc
    | "sort" => some sort
    | "uniq" => some uniq
    | "cut" => some cut
    | "paste" => some paste
    | "tr" => some tr
    | "grep" => some grep
    | "sed" => some sed
    | "awk" => some awk
    | _ => none

def programAt? (path : Path) : Option Program :=
  if !path.isAbsolute || path.endsInSlash then none
  else match path.pieces.filter (· ≠ ".") with
    | ["bin", name] | ["usr", "bin", name] => program? name
    | _ => none

/-! ### Finding programs -/

def isLineBlank (c : Char) : Bool :=
  c = ' ' || c = '\t'

/-- The interpreter that the first line of a script names, and the option behind it, if any; nothing
if the line names none. -/
def interpreter? (source : String) : Option (String × Option String) :=
  match source.toList with
  | '#' :: '!' :: rest =>
    let line := (rest.takeWhile (· ≠ '\n')).dropWhile isLineBlank
    let path := line.takeWhile (!isLineBlank ·)
    let behind := ((line.drop path.length).dropWhile isLineBlank).reverse.dropWhile isLineBlank
    if path.isEmpty then none
    else some (String.ofList path,
      if behind.isEmpty then none else some (String.ofList behind.reverse))
  | _ => none

/-- Something that can be started: a program, the name under which it runs, and its first words. -/
structure Executable where
  program : Program
  name : String
  words : List String := []

/-- What is started at a path. A script is handed to its interpreter, which may be a script as well, at
most so many times. -/
def executableAt (d : Disk) (name : String) : Nat → String → Except Fault Executable
  | 0, _ => .error .notRunnable
  | fuel + 1, path =>
    match programAt? (pathOf path) with
    | some p => .ok { program := p, name := name }
    | none => do
      match d.entryAt? (← d.locate (pathOf path)) with
      | some (.file c true) =>
        match interpreter? (contentOctets c) with
        | none => .error .notRunnable
        | some (i, behind) =>
          let e ← executableAt d i fuel i
          .ok { e with words := e.words ++ behind.toList ++ [path] }
      | _ => .error .denied

/-- How many scripts may be the interpreters of each other. -/
def interpreterLimit : Nat := 5

/-- The directories in which commands are looked for if nothing else is said. -/
def usualDirectories : String :=
  "/usr/local/sbin:/usr/local/bin:/usr/sbin:/usr/bin:/sbin:/bin"

/-- The paths at which a command may stand in directories. -/
def candidates (directories name : String) : List String :=
  (Text.splitAt ':' directories.toList).map fun d =>
    if d.isEmpty then name else below (String.ofList d) name

/-- What a name means in directories, with its path; the first thing that is there and may be run. -/
def findProgram (d : Disk) (directories name : String) : String × Except Fault Executable :=
  let at_ (path : String) : String × Except Fault Executable :=
    (path, executableAt d name interpreterLimit path)
  if name.toList.contains '/' then at_ name
  else
    let found := (candidates directories name).map at_
    let counts : Except Fault Executable → Bool
      | .error .denied | .error .notFound | .error .notDirectory => false
      | _ => true
    match found.find? (counts ·.2) with
    | some r => r
    | none =>
      let isDenied := found.any fun (_, e) => e matches .error .denied
      (name, .error (if isDenied then .denied else .notFound))

/-! ### Running programs -/

/-- Lets a program work on its words and on what there is to be read. -/
def runUtility (u : Utility) (name : String) (args : List String) : Act Unit := do
  let s ← get
  let input := String.ofList (s.charsOn 0)
  let done := u name args { disk := s.disk, input := input }
  set ({ s with disk := done.disk.within s.disk.cwd }.consume 0 (input.length - done.input.length))
  modify fun s => (s.write 1 done.output).write 2 done.diagnostics
  Act.setStatus done.status

/-- A command of the shell itself that works like a program, but complains like the shell. -/
def utilityBuiltin (u : Utility) (name : String) : Builtin := fun args => do
  let s ← get
  let done := u name args { disk := s.disk }
  (linesOf done.diagnostics).forM Act.warn
  Act.print done.output
  pure done.status

def State.fresh (s : State) (environment : List (String × String)) (name : String) : State :=
  let usual := [("IFS", " \t\n"), ("OPTIND", "1"), ("PPID", toString (s.self - 1)),
    ("PWD", octets s.disk.cwdPath.text)]
  let given := environment.filter fun (name, _) => isName name && (usual.lookup name).isNone
  let own := if (given.lookup "PATH").isSome then usual else ("PATH", usualDirectories) :: usual
  let bindings := given.map (fun (name, v) => (name, Binding.mk (some v) true)) ++
    own.map fun (name, v) => (name, { value := some v, exported := name = "PWD" })
  let own : Own :=
    { channels := s.channels, program := name, process := s.self, self := s.self, around := s.around
      traps := s.traps.filter (·.2.isEmpty), bindings := bindings }
  { s with toOwn := own }

/-- Runs a shell with words: a text of commands, the name of a script, or nothing if the script is what
there is to be read. -/
def runShell (run : Runner) (environment : List (String × String)) (name : String)
    (args : List String) : Act Unit := do
  modify (·.fresh environment name)
  toItsEnd run do
    let isText := args.head? = some "-c"
    let words ← Builtin.setWords (args.length + 1) (if isText then args.tail else args)
    match words.getD [] with
    | [] => do
      if isText then Act.fail "-c requires an argument"
      let text := (← get).charsOn 0
      modify (·.consume 0 text.length)
      runText run false (String.ofList text)
    | file :: more => do
      if isText then
        modify ({ · with program := more.headD name, arguments := more.tail })
        return ← runText run false file
      let s ← get
      match s.disk.locate (pathOf file) with
      | .error f => Act.fail (Lead.openFault false file f)
      | .ok l => do
        set { s with program := file, arguments := more }
        runText run false (s.octetsAt l)

/-- Runs a program in a process that is there for it, nested in others at most as deep as `fuel`
says. -/
def execute (run : Runner) : Nat → List (String × String) → Executable → List String → Act Unit
  | 0, _, _, _ => pure ()
  | fuel + 1, environment, e, args => do
    let args := e.words ++ args
    match e.program with
    | .shell => runShell run environment e.name args
    | .utility u => runUtility u e.name args
    | .environment => do
      let given := args.takeWhile (·.toList.contains '=')
      let known := given.foldl (fun known v =>
        let (name, value) := Builtin.cutAtEquals v
        known.filter (·.1 ≠ name) ++ [(name, value.getD "")]) environment
      match args.drop given.length with
      | [] => do
        Act.print (unlines (known.map fun (n, v) => n ++ "=" ++ v))
        Act.setStatus 0
      | name :: words => do
        let directories := (known.lookup "PATH").getD usualDirectories
        match (findProgram (← get).disk directories name).2 with
        | .ok e => execute run fuel known e words
        | .error f => do
          modify (·.write 2 (e.name ++ ": " ++ inQuotes name ++ ": " ++ f.reason ++ "\n"))
          Act.setStatus (if f = .notFound then 127 else 126)

def startLimit : Nat := 100

/-- What is run for the name of a command, or what is said if nothing is. A file that may be run but
names no interpreter is a script. -/
def executableFor (s : State) (name : String) : Except (String × Nat) Executable :=
  match findProgram s.disk ((s.value? "PATH").getD "") name with
  | (_, .ok e) => .ok e
  | (path, .error .notRunnable) =>
    .ok { program := .shell, name := "/bin/sh", words := [path] }
  | (_, .error .notFound) | (_, .error .notDirectory) =>
    .error (name ++ ": " ++ if name.isEmpty then "Permission denied" else "not found", 127)
  | (_, .error f) => .error (name ++ ": " ++ f.reason, 126)

end FpgaProject.Shell
