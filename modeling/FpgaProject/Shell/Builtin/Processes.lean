import FpgaProject.Shell.Apart
import FpgaProject.Shell.Builtin.Variables

/-!
The commands of the shell that deal with its directory, with signals and with what goes on by itself.
-/

namespace FpgaProject.Shell.Builtin

/-! ### The directory -/

def directoryName (s : State) : String :=
  octets s.disk.cwdPath.text

def goTo : Builtin := fun args => do
  let s ← get
  let name := match args with
    | [] => (s.value? "HOME").getD ""
    | "-" :: _ => (s.value? "OLDPWD").getD (directoryName s)
    | name :: _ => name
  match s.disk.locate (pathOf name) with
  | .ok l =>
    if s.disk.entryAt? l ≠ some .directory then Act.fail ("can't cd to " ++ name)
    set { s with disk := s.disk.within l }
    let new := directoryName (← get)
    for (variable_, value) in [("OLDPWD", directoryName s), ("PWD", new)] do
      Act.assign variable_ value
      markExported variable_
    if args.head? = some "-" then Act.print (new ++ "\n")
    pure 0
  | .error _ => Act.fail ("can't cd to " ++ name)

def showDirectory : Builtin := fun _ => do
  Act.print (directoryName (← get) ++ "\n")
  pure 0

/-! ### Signals -/

/-- Says what is done at the end of the script or on signals. -/
def trap : Builtin := fun args => do
  match args with
  | [] => pure 0
  | first :: more => do
    let resets := more.isEmpty || first = "-" ||
      (!first.isEmpty && first.toList.all Char.isDigit && (Signal.number? first).isSome)
    let words := if first = "-" || !resets then more else args
    words.foldlM (fun status word => do
      match Signal.number? word with
      | none => do
        modify (·.write 2 ("trap: " ++ word ++ ": bad trap\n"))
        pure 1
      | some n => do
        modify fun s =>
          let others := s.traps.filter (·.1 ≠ n)
          { s with traps := if resets then others else (n, first) :: others }
        pure status) 0

/-- Sends a signal to a process. One that answers it does so as soon as it goes on; a job that has
been put off never starts. -/
def send (signal goal : Nat) : Act Nat := do
  let s ← get
  let answers := if goal = s.self then some (State.answered s.toOwn) else s.around.lookup goal
  let isIgnored := goal = s.self && s.traps.contains (signal, "")
  let isWaiting := s.jobs.any fun j => j.id = goal && j.status.isNone
  match answers with
  | some answers =>
    if signal = 0 || (isIgnored && signal ≠ Signal.kill) then pure 0
    else if answers.contains signal && signal ≠ Signal.kill then do
      set { s with signals := s.signals ++ [(goal, signal)] }
      pure 0
    else throw (.killed signal goal)
  | none =>
    if isWaiting then do
      if signal ≠ 0 then set (s.endJob goal (128 + signal))
      pure 0
    else do
      Act.warn "No such process\n"
      pure 1

/-- Sends signals. -/
def kill : Builtin := fun args => do
  let signal (name : String) : Act Nat := do
    match Signal.number? name with
    | some n => pure n
    | none => Act.fail ("invalid signal number or name: " ++ name)
  let (n, goals) ← match args with
    | "-s" :: name :: goals => do pure (← signal name, goals)
    | first :: goals => do
      if first.startsWith "-" then pure (← signal (String.ofList first.toList.tail), goals)
      else pure (Signal.terminate, args)
    | [] => Act.fail "Usage: kill [-s sigspec | -signum | -sigspec] [pid | job]..."
  goals.foldlM (fun status goal => do pure (max status (← send n (← number goal)))) 0

/-- Waits for all jobs of the process, or for some, and tells how the last one has ended. -/
def wait (run : Runner) : Builtin := fun args => do
  let self := (← get).self
  if args.isEmpty then
    runJobs run fun j => j.parent = self
    pure 0
  else
    args.foldlM (fun _ word => do
      let id ← number word
      runJobs run fun j => j.id = id
      let ended := (← get).jobs.find? fun j => j.id = id && j.parent = self
      pure ((ended.bind (·.status)).getD 127)) 0

end FpgaProject.Shell.Builtin
