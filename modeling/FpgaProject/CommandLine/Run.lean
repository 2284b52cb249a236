import FpgaProject.CommandLine.Execute
import FpgaProject.Diagnostics.Line

/-!
The program as a whole: from arguments to what is printed and the code at the end.

Diagnostics come before what the tool prints beside its output, and an error comes last. The word
`error` is coloured as the environment says; the option for colour comes too late for it and is for
hints alone.
-/

namespace FpgaProject.CommandLine

structure Environment where
  tool : Option String
  log : Option String
  noColour : Option String
  forceColour : Option String
deriving DecidableEq, Repr

namespace Environment

def forcesColour (e : Environment) : Bool :=
  e.forceColour.any (· ≠ "0")

def coloursDiagnostics (e : Environment) : Bool :=
  !e.noColour.any (· ≠ "")

def coloursHints (e : Environment) (mode : Option ColourMode) : Bool :=
  match mode with
  | some .always => true
  | some .never => false
  | some .auto | none => e.forcesColour

def errorLine (e : Environment) (text : String) : String :=
  (if e.forcesColour then highlighted "1;31" "error" else "error") ++ ": " ++ text ++ "\n"

end Environment

structure Outcome where
  disk : Disk
  console : Console
  code : Nat

def failureCode : Nat := 101

def Outcome.ofExecution (e : Environment) (mode : Option ColourMode) (x : Execution) : Outcome :=
  let ((d, screen), report) := x
  let said := Diagnostics.lines (.ofSetting e.log) e.coloursDiagnostics report.events
  let console := { screen.console with err := said ++ screen.console.err }
  let d := (screen.left.map (·.within d.cwd)).getD d
  match report.result with
  | .ok () => ⟨d, console.append screen.later, 0⟩
  | .error f =>
    let text := Text.lowered (f.message (e.coloursHints mode))
    ⟨d, (console.printError (e.errorLine text)).append screen.later, failureCode⟩

def run (launch : Launcher) (e : Environment) (args : List String) (d : Disk) : Outcome :=
  match Invocation.ofArguments args with
  | .error (.help page) => ⟨d, { out := page ++ "\n" }, 0⟩
  | .error (.complaint c) =>
    ⟨d, { err := e.errorLine (Text.lowered (c.message e.forcesColour)) }, failureCode⟩
  | .ok i => .ofExecution e i.colour (i.execute ⟨launch, e.tool⟩ d)

end FpgaProject.CommandLine
