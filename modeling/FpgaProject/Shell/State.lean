import FpgaProject.Process.Basic
import FpgaProject.Shell.Command
import FpgaProject.Shell.Formula
import FpgaProject.Shell.Octets
import FpgaProject.Shell.Signal

/-!
What a script works on, and what it does.

A process has variables, functions, arguments and channels of its own; it shares the disk, what has
been printed and the open files with those that it starts. A file that is open has a place in it at
which is read and written next; channels may share it.

A part of a script that goes on by itself is a job. It is put off until somebody waits for it, or
until the script has ended, so time does not pass and nothing happens at once.
-/

namespace FpgaProject.Shell

inductive Channel where
  | out
  | err
deriving DecidableEq, Repr

inductive Target where
  | console (c : Channel)
  | file (l : Location)
  | void
  | text (s : String)
  | gathered (s : String)
deriving DecidableEq, Repr

/-- A file that is open: the place in it at which is read or written next, or whether is always
written at its end. -/
structure OpenFile where
  target : Target
  place : Nat := 0
  appending : Bool := false
deriving DecidableEq, Repr

structure Binding where
  value : Option String := none
  exported : Bool := false
deriving DecidableEq, Repr

/-- What a process has of its own. The script belongs to `process`, which is `self` unless a part of
it is set apart; those around are kept with the signals that they answer. -/
structure Own where
  channels : List (Nat × Nat) := [(0, 0), (1, 1), (2, 2)]
  program : String := "sh"
  arguments : List String := []
  process : Nat := 4711
  self : Nat := 4711
  around : List (Nat × List Nat) := []
  bindings : List (String × Binding) := []
  functions : List (String × Command) := []
  options : List Char := []
  traps : List (Nat × String) := []
  status : Nat := 0
  outputStatus : Nat := 0
  line : Nat := 0
  speaker : Option String := none
  loops : Nat := 0
  calls : Nat := 0
  hidden : List (List (String × Option Binding)) := []
  lastStarted : Option Nat := none
  optionIndex : Nat := 1
  optionPlace : Nat := 0

/-- A part of a script that goes on by itself: its process, the one that has started it, the directory
in which it works, and its status once it has been run. -/
structure Job where
  id : Nat
  parent : Nat
  command : Command
  own : Own
  directory : Location
  status : Option Nat := none

/-- A process on the way, with what it shares. -/
structure State extends Own where
  disk : Disk
  console : Console := {}
  files : Array OpenFile := #[⟨.void, 0, false⟩, ⟨.console .out, 0, false⟩, ⟨.console .err, 0, false⟩]
  documents : List (Nat × Word) := []
  asked : Nat := 0
  started : Nat := 0
  jobs : List Job := []
  signals : List (Nat × Nat) := []

namespace State

/-! ### Channels -/

def fileOf? (s : State) (channel : Nat) : Option (Nat × OpenFile) :=
  (s.channels.lookup channel).bind fun n => s.files[n]?.map fun f => (n, f)

def octetsAt (s : State) (l : Location) : String :=
  match s.disk.entryAt? l with
  | some (.file c _) => contentOctets c
  | _ => ""

/-- The characters that are left to be read on a channel. -/
def charsOn (s : State) (channel : Nat) : List Char :=
  match s.fileOf? channel with
  | some (_, ⟨.text t, place, _⟩) => t.toList.drop place
  | some (_, ⟨.file l, place, _⟩) => (s.octetsAt l).toList.drop place
  | _ => []

/-- Passes over some of what is left to be read on a channel. -/
def consume (s : State) (channel n : Nat) : State :=
  match s.fileOf? channel with
  | some (k, f) => { s with files := s.files.setIfInBounds k { f with place := f.place + n } }
  | none => s

def writeFile (s : State) (k : Nat) (f : OpenFile) (text : String) : State :=
  match f.target with
  | .console .out => { s with console := s.console.print text }
  | .console .err => { s with console := s.console.printError text }
  | .void | .text _ => s
  | .gathered t =>
    { s with files := s.files.setIfInBounds k { f with target := .gathered (t ++ text) } }
  | .file l =>
    match s.disk.entryAt? l with
    | some (.file c x) =>
      let before := (contentOctets c).toList
      let place := if f.appending then before.length else f.place
      -- Behind the end of a file there are zeros up to the place.
      let front := before.take place ++ List.replicate (place - before.length) '\x00'
      let after := front ++ text.toList ++ before.drop (place + text.length)
      { s with
        disk := s.disk.put l (.file (contentsOf (String.ofList after)) x)
        files := s.files.setIfInBounds k { f with place := place + text.length } }
    | _ => s

def write (s : State) (channel : Nat) (text : String) : State :=
  match s.fileOf? channel with
  | some (k, f) => s.writeFile k f text
  | none => s

def leadTo (s : State) (channel : Nat) (file : Option Nat) : State :=
  { s with
    channels := (file.map fun n => (channel, n)).toList ++ s.channels.filter (·.1 ≠ channel) }

def lead (s : State) (channel : Nat) (f : OpenFile) : State :=
  { s with files := s.files.push f }.leadTo channel s.files.size

/-! ### Processes -/

/-- The signals that a process answers. -/
def answered (o : Own) : List Nat :=
  (o.traps.filter (!·.2.isEmpty)).map Prod.fst

/-- What a process has of its own that starts within the present one. -/
def child (s : State) (id : Nat) : Own :=
  { s.toOwn with
    self := id
    around := (s.self, answered s.toOwn) :: s.around
    traps := s.traps.filter (·.2.isEmpty) }

def nextProcess (s : State) : Nat :=
  4711 + s.started + 1

/-! ### Variables -/

/-- What stands in front of a complaint: the program, the line, and the command that complains. -/
def complaint (s : State) (text : String) : String :=
  s.program ++ ": " ++ toString s.line ++ ": " ++
    (s.speaker.map (· ++ ": ")).getD "" ++ text ++ "\n"

def value? (s : State) (name : String) : Option String :=
  (s.bindings.lookup name).bind (·.value)

def has (s : State) (option : Char) : Bool :=
  s.options.contains option

def bind (s : State) (name : String) : Option Binding → State
  | none => { s with bindings := s.bindings.filter (·.1 ≠ name) }
  | some b =>
    if (s.bindings.lookup name).isNone then { s with bindings := s.bindings ++ [(name, b)] }
    else { s with bindings := s.bindings.map fun x => if x.1 = name then (name, b) else x }

def assign (s : State) (name value : String) : State :=
  let s := s.bind name (some { (s.bindings.lookup name).getD {} with value := some value })
  if name = "OPTIND" then
    { s with optionIndex := ((numberOf? false value).map Int.toNat).getD 1, optionPlace := 0 }
  else s

/-- The variables that those who are started know. -/
def environment (s : State) : List (String × String) :=
  s.bindings.filterMap fun (name, b) => if b.exported then b.value.map fun v => (name, v) else none

def separators (s : State) : List Char :=
  match s.value? "IFS" with
  | some v => v.toList
  | none => [' ', '\t', '\n']

end State

/-! ### Acts -/

/-- What stops an act: the end of the script, an error, a signal by which a process is killed, the end
of a loop or of the run through it, where some loops around it end as well, or the end of a
function. -/
inductive Stop where
  | exit
  | error
  | killed (signal process : Nat)
  | loop (j : Jump) (outer : Nat)
  | back
deriving DecidableEq, Repr

/-- What a script does. What has been done before it stops remains done. -/
abbrev Act := ExceptT Stop (StateM State)

/-- How a command is run; tells whether something asks for its status. -/
abbrev Runner := Bool → Command → Act Unit

namespace Act

variable {α : Type}

/-- Carries out an act whatever stops it, and says what has. -/
def caught (a : Act α) : Act (Except Stop α) :=
  ExceptT.mk (.ok <$> a.run)

/-- Goes on with what has come of an act. -/
def resume : Except Stop α → Act α
  | .ok a => pure a
  | .error e => throw e

/-- Does one thing and then another one, also if the first one is stopped. -/
def followedBy (a : Act α) (last : Act Unit) : Act α := do
  let r ← caught a
  last
  resume r

/-- Repeats an act as long as it asks for it, at most `fuel` times, and gives what it has kept. -/
def repeated (act : α → Act (Bool × α)) : Nat → α → Act α
  | 0, kept => pure kept
  | fuel + 1, kept => do
    let (goes, kept) ← act kept
    if goes then repeated act fuel kept else pure kept

/-- How often a loop is run through at most. -/
def loopLimit : Nat := 1000000

def print (text : String) : Act Unit :=
  modify fun s => s.write 1 text

def warn (text : String) : Act Unit :=
  modify fun s => s.write 2 (s.complaint text)

def setStatus (n : Nat) : Act Unit :=
  modify ({ · with status := n })

def fail (text : String) : Act α := do
  warn text
  setStatus 2
  throw .error

def assign (name value : String) : Act Unit :=
  modify (·.assign name value)

def sayKilled (signal : Nat) : Act Unit := do
  setStatus (128 + signal)
  match Signal.message? signal with
  | some text => modify (·.write 2 (text ++ "\n"))
  | none => pure ()

/-- Does something as a process within the present one, which goes on when that one has ended. -/
def inProcess (start : Own → Own) (act : Act Unit) : Act Unit := do
  let s ← get
  let id := s.nextProcess
  set { s with toOwn := start (s.child id), started := s.started + 1 }
  let r ← caught act
  modify fun t =>
    { t with
      toOwn := { s.toOwn with status := t.status % 256 }
      disk := t.disk.within s.disk.cwd }
  match r with
  | .error (.killed signal goal) =>
    if goal = id then sayKilled signal else throw (.killed signal goal)
  | _ => pure ()

end Act

end FpgaProject.Shell
