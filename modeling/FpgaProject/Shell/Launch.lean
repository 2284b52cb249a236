import FpgaProject.Shell.Run

/-!
Starting a tool.

What a tool does that stands on the disk as a script is found by running the script. It is started in
a directory, which is gone to first. A name with a slash in it is a path from there; another name is
looked for in the directories of a list. The file must be there and may be run; its first line must
name an interpreter that is there.
-/

namespace FpgaProject.Shell

def isSendable (s : String) : Bool :=
  !s.toList.contains '\x00'

/-- The variables that a program knows if nothing else is said. -/
def usualVariables : List (String × String) :=
  [("PATH", usualDirectories), ("HOME", "/root")]

def variablesWith (given : List (String × String)) : List (String × String) :=
  usualVariables.filter (fun v => (given.lookup v.1).isNone) ++ given

def executableNamed (d : Disk) (directories name : String) : Except Fault Executable :=
  if name.isEmpty then .error .notFound
  else if !name.toList.contains '/' && Disk.nameLimit < name.length then .error .nameTooLong
  else (findProgram d directories name).2

def consoleOf (c : Console) : Console :=
  ⟨decoded c.out, decoded c.err⟩

/-- What a program leaves behind that has come to an end. The jobs for which it has not waited go on
then. -/
def aftermath (run : Runner) (r : Except Stop Unit) (s : State) : Aftermath :=
  let ending : Ending := match r with
    | .error (.killed ..) => .killed
    | _ => .exited (s.status % 256)
  let a : Aftermath := ⟨s.disk, consoleOf s.console, ending, {}, none⟩
  if s.jobs.all (·.status.isSome) then a
  else
    let (_, t) := (runJobs run fun _ => true).run.run { s with console := {} }
    { a with later := consoleOf t.console, left := some t.disk }

def runProgram (d : Disk) (known : List (String × String)) (name : String)
    (arguments : List String) : Except Fault Aftermath := do
  let known := known.map fun (n, v) => (octets n, octets v)
  let e ← executableNamed d ((known.lookup "PATH").getD usualDirectories) (octets name)
  let act : Act Unit := execute (run depthLimit) startLimit known e (arguments.map octets)
  let (r, s) := act.run.run { disk := d }
  .ok (aftermath (run depthLimit) r s)

/-- Starts programs that know variables beside the usual ones. -/
def launcher (given : List (String × String)) : Launcher := fun d dir program arguments =>
  if !(program :: dir.text :: arguments).all isSendable then .error .nulInArgument
  else do
    let l ← d.locate dir
    match d.entryAt? l with
    | some .directory => runProgram (d.within l) (variablesWith given) program arguments
    | _ => .error .notDirectory

end FpgaProject.Shell
