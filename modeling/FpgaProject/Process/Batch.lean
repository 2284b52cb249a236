import FpgaProject.Process.Basic
import FpgaProject.Project

/-!
Running the tool in batch mode.

The tool is started in the directory of the script, so that what it leaves there stands next to the
project, and the script is named by an absolute path, so that it is found from there. A run succeeds
if the tool ends with the code zero.
-/

namespace FpgaProject.Batch

/-- The arguments that make the tool run a script and end. -/
def arguments (script : Path) : List String :=
  ["-mode", "batch", "-notrace", "-source", script.tclText]

/-- The line that shows what is about to be run. -/
def announcement (tool : String) (arguments : List String) : String :=
  "info: running: " ++ tool ++ " " ++
    String.join (arguments.map fun a => "\"" ++ a ++ "\" ") ++ "\n"

def outcome : Ending → Except Error Unit
  | .exited 0 => .ok ()
  | .exited code => .error (.exitCode code)
  | .killed => .error .terminated

/-- The directory in which the tool is started. -/
def directory (d : Disk) (script : Path) : Path :=
  script.parent?.getD d.cwdPath

/-- Runs the tool on a script. If `verbose` is set, what is run is shown first. -/
def runner (launch : Launcher) (verbose : Bool) : Runner Screen := fun tool script d screen =>
  match script.absolute? d.cwdPath with
  | none => ((d, screen), .fail (.fault .emptyPath))
  | some script =>
    let said := [Event.running tool (directory d script)]
    let screen :=
      if verbose then screen.print (announcement tool (arguments script)) else screen
    match launch d (directory d script) tool (arguments script) with
    | .error f => ((d, screen), ⟨said, .error (.fault f)⟩)
    | .ok left => ((left.disk.within d.cwd, screen.after left), ⟨said, outcome left.ending⟩)

theorem outcome_eq_ok_iff (e : Ending) : outcome e = .ok () ↔ e = .exited 0 := by
  unfold outcome
  split <;> simp_all

end FpgaProject.Batch
