import FpgaProject.Shell.Expansion
import FpgaProject.Shell.Script

/-!
Running texts of commands, and parts of a script that are set apart.

How a command is run is handed down as a function. The commands of a text are run one after another,
each as soon as it is read. A part of a script that is set apart changes nothing of the script but
files and what is printed. A script ends when a command ends it, at an error, or after its last
command, with the status of that one; then it does what it has been told to do at its end.
-/

namespace FpgaProject.Shell

/-! ### Texts of commands -/

/-- Runs the commands of a text that is being read, at most `fuel` of them. -/
def runSource (run : Runner) (tested : Bool) : Nat → Source → Act Unit
  | 0, _ => pure ()
  | fuel + 1, source => do
    let s ← get
    match { source with asked := s.asked }.next? with
    | .error m => do
      set { s with line := m.line }
      Act.fail ("Syntax error: " ++ m.reason)
    | .ok (none, _) => pure ()
    | .ok (some c, left) => do
      set { s with documents := left.documents ++ s.documents, asked := left.asked }
      run tested c
      runSource run tested fuel { left with documents := [] }

def runText (run : Runner) (tested : Bool) (text : String) : Act Unit :=
  runSource run tested (text.length + 2) { rest := text.toList }

/-- Does what is to be done on the signals that have come to the process, at most so many of them. -/
def answerSignals (run : Runner) : Nat → Act Unit
  | 0 => pure ()
  | fuel + 1 => do
    let s ← get
    match s.signals.find? (·.1 = s.self) with
    | none => pure ()
    | some (goal, n) => do
      set { s with signals := s.signals.erase (goal, n) }
      runText run false ((s.traps.lookup n).getD "")
      Act.setStatus s.status
      answerSignals run fuel

/-! ### Ends -/

/-- Does what is to be done at the end of a script. -/
def finish (run : Runner) : Act Unit := do
  let s ← get
  match s.traps.lookup 0 with
  | none => pure ()
  | some action => do
    set { s with traps := s.traps.filter (·.1 ≠ 0), loops := 0, calls := 0 }
    match ← Act.caught (runText run false action) with
    | .error (.killed n goal) => throw (.killed n goal)
    | .error .exit | .error .error => pure ()
    | _ => Act.setStatus s.status

/-- Runs something to its end, and does what is to be done then. -/
def toItsEnd (run : Runner) (act : Act Unit) : Act Unit := do
  match ← Act.caught act with
  | .error (.killed n goal) => throw (.killed n goal)
  | _ => finish run

def outputOf (run : Runner) (act : Act Unit) : Act String := do
  let s ← get
  set (s.lead 1 ⟨.gathered "", 0, false⟩)
  Act.followedBy (Act.inProcess id (toItsEnd run act)) (modify ({ · with channels := s.channels }))
  match (← get).files[s.files.size]? with
  | some ⟨.gathered text, _, _⟩ => pure text
  | _ => pure ""

/-- What a command in a word prints. -/
def substitution (run : Runner) (c : Command) : Act String := do
  let status := (← get).status
  let text ← outputOf run (run false c)
  modify fun s => { s with outputStatus := s.status, status := status }
  pure text

/-! ### Jobs -/

/-- Puts off a part of the script that goes on by itself, with nothing to be read. -/
def startJob (c : Command) : Act Unit :=
  modify fun s =>
    let id := s.nextProcess
    let t := s.lead 0 ⟨.void, 0, false⟩
    let job : Job := ⟨id, s.self, c, t.child id, s.disk.cwd, none⟩
    { t with
      channels := s.channels
      started := s.started + 1
      jobs := s.jobs ++ [job]
      lastStarted := some id
      status := 0 }

def State.endJob (s : State) (id status : Nat) : State :=
  { s with jobs := s.jobs.map fun j => if j.id = id then { j with status := some status } else j }

def runJob (run : Runner) (j : Job) : Act Unit := do
  let s ← get
  -- The job counts as ended from now on, so that it is not run again from within.
  set { s.endJob j.id 0 with toOwn := j.own, disk := s.disk.within j.directory }
  let r ← Act.caught (toItsEnd run (run false j.command))
  let status := (← get).status % 256
  modify fun t => { t with toOwn := s.toOwn, disk := t.disk.within s.disk.cwd }
  match r with
  | .error (.killed n goal) => do
    modify (·.endJob j.id (128 + n))
    if goal ≠ j.id then throw (.killed n goal)
  | _ => modify (·.endJob j.id status)

def runJobs (run : Runner) (wanted : Job → Bool) : Act Unit := do
  for j in (← get).jobs do
    let isLeft := (← get).jobs.any fun k => k.id = j.id && k.status.isNone
    if isLeft && wanted j then runJob run j

end FpgaProject.Shell
