import FpgaProject.Module
import FpgaProject.Script.Command

/-!
What is written into the scripts of a project.

A design is all that the two scripts say. `Design.creation` is the script that makes the project in
a folder, `Design.building` the one that builds it: synthesis first, then, unless only that is asked
for, implementation and the export of the results. Each run must come to its end and must meet its
limit on the slack, or the script ends with an error.
-/

namespace FpgaProject

open Script

/-- All that the scripts of a project say. -/
structure Design where
  name : String
  modules : List Module
  part : String
  top : String
  blockDesign : Option Path
  generics : Generics
  constraints : List Constraint
  clockCrossings : Option Path
  entityConstraints : List Constraint
deriving Repr

/-- The name of the constraint on clock crossings that comes with each project. -/
def crossingsFile : String := "constrain_clock_crossings.tcl"

/-- The tool uses no more threads than this. -/
def threadLimit : Nat := 8

namespace Design

def absoluteText (d : Disk) (p : Path) : Except Error String :=
  match p.absolute? d.cwdPath with
  | some q => .ok q.tclText
  | none => .error (.fault .emptyPath)

/-- Every constraint of a project in a folder: those of the user, the one on clock crossings, those
of the modules. -/
def constraintsFor (x : Design) (folder : Path) : List Constraint :=
  x.constraints ++
    .ofFile (x.clockCrossings.getD (folder.child crossingsFile)) :: x.entityConstraints

/-- The command for the sources of a module; none if it has no sources. -/
def sourceCommands (d : Disk) (m : Module) : Except Error (List Command) := do
  let files ← (m.synthesisFiles d).mapM (absoluteText d)
  .ok (if files = [] then [] else [.readSources m.library files])

def constraintCommands (d : Disk) (c : Constraint) : Except Error (List Command) := do
  let file ← absoluteText d c.file
  .ok (.readConstraint c.reference file ::
    (if c.usage.includes .synthesis then [] else [.leaveOut .synthesis file]) ++
    (if c.usage.includes .implementation then [] else [.leaveOut .implementation file]))

def blockDesignCommands (x : Design) (d : Disk) : Except Error (List Command) :=
  match x.blockDesign with
  | some file => (absoluteText d file).map fun file => [.source file]
  | none => .ok []

/-- The command for the generics; none if there are none. -/
def genericCommands (x : Design) : List Command :=
  if x.generics.isEmpty then [] else [.setGenerics x.generics.tclList]

def creation (x : Design) (d : Disk) (folder : Path) : Except Error (List Command) := do
  let sources ← x.modules.mapM (sourceCommands d)
  let blockDesign ← x.blockDesignCommands d
  let constraints ← (x.constraintsFor folder).mapM (constraintCommands d)
  .ok (
    [.createProject x.name folder.tclText x.part, .setLanguage, .blank] ++
    sources.flatten ++ [.blank] ++
    blockDesign ++ [.blank] ++
    x.genericCommands ++ [.blank] ++
    constraints.flatten ++ [.blank] ++
    [.setTop x.top, .reorderFiles, .blank, .exit])

/-! ### Building -/

/-- A run, the least slack that it may have, and what is said otherwise. -/
structure RunPlan where
  run : String
  slackLimit : Int
  complaint : String
deriving DecidableEq, Repr

/-- Synthesis may leave some negative slack; what the constraint on clock crossings forces on
unhandled crossings is beyond the limit. -/
def synthesisPlan : RunPlan where
  run := "synth_1"
  slackLimit := -90
  complaint :=
    "Timing not OK after synth_1 run. Probably due to an unhandled clock crossings."

/-- Implementation may leave no negative slack. -/
def implementationPlan : RunPlan where
  run := "impl_1"
  slackLimit := 0
  complaint := "Timing not OK after impl_1 run."

def RunPlan.commands (r : RunPlan) : List Command :=
  [.launch r.run, .await r.run, .blank, .requireComplete r.run, .blank, .openRun r.run,
    .requireSlack r.slackLimit r.complaint]

def exportCommands (x : Design) (output : Path) : List Command :=
  let file := (output.child x.name).tclText
  [.writeBitstream file, .writeHardware file]

/-- What a build is asked for. -/
structure BuildRequest where
  synthesisOnly : Bool
  threads : Nat
  output : Option Path
deriving DecidableEq, Repr

/-- Whether the request asks for results without saying where they go. -/
def BuildRequest.lacksOutput (r : BuildRequest) : Bool :=
  !r.synthesisOnly && r.output.isNone

/-- The absolute form of the directory for the results, if one is given. -/
def absoluteOutput (d : Disk) (r : BuildRequest) : Except Error (Option Path) :=
  match r.output with
  | none => if r.lacksOutput then .error (.missingOutput .giveOutput) else .ok none
  | some output =>
    match output.absolute? d.cwdPath with
    | some output => .ok (some output)
    | none => .error (.fault .emptyPath)

def afterSynthesis (x : Design) (r : BuildRequest) (output : Option Path) : List Command :=
  match r.synthesisOnly, output with
  | false, some output =>
    implementationPlan.commands ++ [.blank] ++ x.exportCommands output ++ [.blank]
  | _, _ => []

def building (x : Design) (d : Disk) (projectFile : Path) (r : BuildRequest) :
    Except Error (List Command) := do
  let output ← absoluteOutput d r
  let file ← absoluteText d projectFile
  .ok (
    [.openProject file, .limitThreads (min r.threads threadLimit), .blank] ++
    synthesisPlan.commands ++ [.blank] ++
    x.afterSynthesis r output ++
    [.exit])

end Design

end FpgaProject
