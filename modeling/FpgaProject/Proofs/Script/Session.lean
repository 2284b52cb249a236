import FpgaProject.Proofs.Script.Lines

/-!
What a tool does with a build script.

A tool takes a script line by line. The first word of a line says what is asked for and the rest of
the line of what (`readDirective`). An `if` opens a block that is skipped unless its condition
holds, `exit` ends the session at once, and a line that cannot be read ends it too. A session keeps
what was done in order (`Effect`), so that a claim about a run is a claim about that list.

The tool itself is left open: `Tool` gives any progress and any slack for each run.
-/

namespace FpgaProject.Script

/-! ### Reading a line -/

/-- What a line of a script asks for. -/
inductive Directive where
  | nothing
  | openProject (file : String)
  | limitThreads (count : Nat)
  | launch (run : String)
  | await (run : String)
  | ifIncomplete (run : String)
  | openRun (run : String)
  | ifBelow (limit : Int)
  | say (text : String)
  | endIf
  | writeBitstream (file : String)
  | writeHardware (file : String)
  | exit (status : Nat)
deriving DecidableEq, Repr

def afterFront? : List Char → List Char → Option (List Char)
  | [], s => some s
  | _ :: _, [] => none
  | a :: front, b :: s => if a = b then afterFront? front s else none

/-- What stands between a given front and a given back. -/
def between? (front back : String) (s : List Char) : Option String :=
  (afterFront? front.toList s).bind fun t =>
    (afterFront? back.toList.reverse t.reverse).map fun m => String.ofList m.reverse

theorem afterFront?_append (front s : List Char) : afterFront? front (front ++ s) = some s := by
  induction front with
  | nil => rfl
  | cons a front ih => simpa [afterFront?] using ih

/-- What stands between the front and the back is found. -/
theorem between?_append (front m back : String) :
    between? front back (front ++ m ++ back).toList = some m := by
  simp [between?, afterFront?_append]

/-- Reads what follows the word `if`: that a run has not come to its end, or that the slack of the
open run is below a limit. -/
def readCondition (s : List Char) : Option Directive :=
  match between? "\x7b[get_property PROGRESS [get_runs " "]] != \"100%\"\x7d \x7b" s with
  | some run => some (.ifIncomplete run)
  | none =>
    (between? "\x7b[expr \x7b[get_property SLACK [get_timing_paths -delay_type min_max]] < "
      "\x7d]\x7d \x7b" s).bind fun limit => limit.toInt?.map .ifBelow

def readOperand (word : String) (rest : List Char) : Option Directive :=
  let operand := String.ofList rest
  match word with
  | "" => some .nothing
  | "open_project" => some (.openProject operand)
  | "set_param" =>
    (between? "general.maxThreads " "" rest).bind fun count => count.toNat?.map .limitThreads
  | "launch_runs" => some (.launch operand)
  | "wait_on_run" => some (.await operand)
  | "if" => readCondition rest
  | "open_run" => some (.openRun operand)
  | "puts" => (between? "\"" "\"" rest).map .say
  | "\x7d" => some .endIf
  | "write_bitstream" => some (.writeBitstream operand)
  | "write_hwdef" => some (.writeHardware operand)
  | "exit" => if rest = [] then some (.exit 0) else operand.toNat?.map .exit
  | _ => none

/-- Reads a line; blanks in front of it do not matter. -/
def readDirective (line : List Char) : Option Directive :=
  let (word, rest) := Text.cutAt ' ' (line.dropWhile (· = ' '))
  readOperand (String.ofList word) rest

/-! ### Sessions -/

/-- What the tool answers: the progress of a run that has been waited for, and the worst slack of a
run that is open. -/
structure Tool where
  progress : String → String
  slack : String → Rat

/-- Something that was done, or an answer that was given. -/
inductive Effect where
  | openedProject (file : String)
  | limitedThreads (count : Nat)
  | launched (run : String)
  | awaited (run : String)
  | reported (run progress : String)
  | openedRun (run : String)
  | measured (run : String) (slack : Rat)
  | said (text : String)
  | wroteBitstream (file : String)
  | wroteHardware (file : String)
deriving DecidableEq

/-- How a session ends before the script does. -/
inductive Ending where
  | exited (status : Nat)
  | failed
deriving DecidableEq, Repr

/-- A session: what was done, the progress of each run since it was launched, the run that is open,
for each block around the next line whether it is performed, and how the session ended. -/
structure Session where
  effects : List Effect := []
  progress : List (String × String) := []
  opened : Option String := none
  blocks : List Bool := []
  ending : Option Ending := none

namespace Session

def emit (s : Session) (e : Effect) : Session :=
  { s with effects := s.effects ++ [e] }

def enter (s : Session) (performed : Bool) : Session :=
  { s with blocks := performed :: s.blocks }

def finish (s : Session) (e : Ending) : Session :=
  { s with ending := some e }

/-- The progress of a run, as far as the session has seen it. -/
def progressOf (s : Session) (run : String) : String :=
  (s.progress.lookup run).getD "0%"

/-- Does what a directive asks for, within a block that is performed. -/
def perform (tool : Tool) (s : Session) : Directive → Session
  | .nothing => s
  | .openProject file => s.emit (.openedProject file)
  | .limitThreads count => s.emit (.limitedThreads count)
  | .launch run => { s.emit (.launched run) with progress := (run, "0%") :: s.progress }
  | .await run =>
    if (s.progress.lookup run).isSome then
      { s.emit (.awaited run) with progress := (run, tool.progress run) :: s.progress }
    else s.finish .failed
  | .ifIncomplete run =>
    (s.emit (.reported run (s.progressOf run))).enter (s.progressOf run ≠ "100%")
  | .openRun run => { s.emit (.openedRun run) with opened := some run }
  | .ifBelow limit =>
    match s.opened with
    | some run => (s.emit (.measured run (tool.slack run))).enter (tool.slack run < limit)
    | none => s.finish .failed
  | .say text => s.emit (.said text)
  | .endIf =>
    match s.blocks with
    | _ :: blocks => { s with blocks := blocks }
    | [] => s.finish .failed
  | .writeBitstream file => s.emit (.wroteBitstream file)
  | .writeHardware file => s.emit (.wroteHardware file)
  | .exit status => s.finish (.exited status)

/-- Passes over a directive; only blocks are followed. -/
def skip (s : Session) : Directive → Session
  | .ifIncomplete _ | .ifBelow _ => s.enter false
  | .endIf => { s with blocks := s.blocks.tail }
  | _ => s

/-- Follows a directive, unless the session has ended. -/
def follow (tool : Tool) (s : Session) (d : Directive) : Session :=
  if s.ending.isSome then s else if s.blocks.all id then s.perform tool d else s.skip d

/-- Takes one line; one that cannot be read ends the session. -/
def take (tool : Tool) (s : Session) (line : List Char) : Session :=
  match readDirective line with
  | some d => s.follow tool d
  | none => if s.ending.isSome then s else s.finish .failed

def takeAll (tool : Tool) (s : Session) (lines : List (List Char)) : Session :=
  lines.foldl (take tool) s

end Session

/-- The session in which a tool takes a text line by line. -/
def session (tool : Tool) (text : String) : Session :=
  Session.takeAll tool {} (Text.splitAt '\n' text.toList)

end FpgaProject.Script
