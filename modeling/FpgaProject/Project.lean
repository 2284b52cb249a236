import FpgaProject.Disk.Access
import FpgaProject.Script.Design

/-!
Projects on disk.

A project is assembled from modules and options. Creating it makes its folder, which must not be
there yet, and writes the script that makes the project; building it needs the file that the tool
has made in the folder. Either way the script is then handed to a runner, and the folder is kept
whatever the runner says.
-/

namespace FpgaProject

def defaultTool : String := "vivado"

/-- How many threads are asked for if nothing else is said. -/
def defaultThreads : Nat := 12

def creationFile : String := "create_vivado_project.tcl"

def buildingFile : String := "build_vivado_project.tcl"

/-- The constraint that comes with each project: a path between two different clocks gets a delay
that cannot be met. -/
def crossingsText : String :=
  "# Every path between two different clocks gets an unreachable maximum delay.\n" ++
  "# Crossings handled by a synchronizer override this with their own entity\n" ++
  "# constraint, so only unhandled crossings are left with a slack near -100.\n" ++
  "foreach clk_a [get_clocks -quiet] \x7b\n" ++
  "  foreach clk_b [get_clocks -quiet] \x7b\n" ++
  "    if \x7b$clk_a != $clk_b\x7d \x7b\n" ++
  "      set_max_delay -quiet -datapath_only -100 -from $clk_a -to $clk_b\n" ++
  "    \x7d\n" ++
  "  \x7d\n" ++
  "\x7d\n"

/-- What may be said about a project beside its name, part and modules. -/
structure ProjectOptions where
  top : Option String := none
  blockDesign : Option Path := none
  generics : Generics := .empty
  tool : Option String := none
  constraints : List Constraint := []
  definedAt : Option String := none
  clockCrossings : Option Path := none
deriving Repr

/-- A project that can be created and built. -/
structure Project where
  tool : String
  definedAt : Option String
  /-- Whether the constraint on clock crossings that comes with each project is written. -/
  bundledCrossings : Bool
  design : Design
deriving Repr

/-- Runs a tool on a script. It may change the disk and its own state. -/
abbrev Runner (σ : Type) := String → Path → Disk → σ → (Disk × σ) × Report Unit

namespace Project

def name (p : Project) : String := p.design.name

def top (p : Project) : String := p.design.top

/-- Assembles a project. The constraints for entities are read from the modules once, now. -/
def assemble (d : Disk) (name : String) (modules : List Module) (part : String)
    (options : ProjectOptions) : Report Project :=
  let entity := modules.flatMap (·.entityConstraints d)
  let design : Design := {
    name := name
    modules := modules
    part := part
    top := options.top.getD (name ++ "_top")
    blockDesign := options.blockDesign
    generics := options.generics
    constraints := options.constraints
    clockCrossings := options.clockCrossings
    entityConstraints := entity }
  ⟨[.constraintsRead name options.constraints.length entity.length],
    .ok ⟨options.tool.getD defaultTool, options.definedAt, options.clockCrossings.isNone, design⟩⟩

/-- The constraint that comes with a project is written exactly if no other one is read. -/
theorem bundledCrossings_of_assemble {d : Disk} {name part : String} {modules : List Module}
    {options : ProjectOptions} {p : Project}
    (assembled : (assemble d name modules part options).result = .ok p) :
    p.bundledCrossings = p.design.clockCrossings.isNone := by
  obtain rfl := Except.ok.inj assembled
  rfl

def summary (p : Project) : String :=
  "VivadoProject" ++
    (match p.definedAt with
      | some place => " defined at: " ++ place
      | none => "") ++
    "\nName: " ++ p.name ++ "\nTop level: " ++ p.top

def projectFile (p : Project) (folder : Path) : Path :=
  folder.child (p.name ++ ".xpr")

def writeScript (d : Disk) (script : Path) (commands : List Script.Command) :
    Disk × Report Path :=
  match d.writeText script (Script.text commands) with
  | (d, .error f) => (d, .fail (.fault f))
  | (d, .ok ()) => (d, ⟨[.wrote script], .ok script⟩)

/-- Writes the constraint on clock crossings, unless the project has one of its own. -/
def writeCrossings (p : Project) (d : Disk) (folder : Path) : Disk × Except Fault Unit :=
  if p.bundledCrossings then d.writeText (folder.child crossingsFile) crossingsText
  else (d, .ok ())

/-- Makes the folder of a project and writes the script that makes the project. -/
def createScript (p : Project) (folder : Path) (d : Disk) : Disk × Report Path :=
  if d.pathExists folder then (d, .fail (.pathExists folder .buildInstead))
  else match folder.absolute? d.cwdPath with
    | none => (d, .fail (.fault .emptyPath))
    | some folder =>
      match p.design.creation d folder with
      | .error e => (d, .fail e)
      | .ok commands =>
        match d.makeDirectories folder with
        | (d, .error f) => (d, .fail (.fault f))
        | (d, .ok ()) =>
          match p.writeCrossings d folder with
          | (d, .error f) => (d, .fail (.fault f))
          | (d, .ok ()) => writeScript d (folder.child creationFile) commands

def buildScript (p : Project) (folder : Path) (request : Design.BuildRequest) (d : Disk) :
    Disk × Report Path :=
  let file := p.projectFile folder
  if d.pathExists file then
    match p.design.building d file request with
    | .error e => (d, .fail e)
    | .ok commands => writeScript d (folder.child buildingFile) commands
  else (d, .fail (.projectFileNotFound file))

def run {σ : Type} (p : Project) (runner : Runner σ) (script : Path) (d : Disk) (s : σ) :
    (Disk × σ) × Report Unit :=
  match runner p.tool script d s with
  | (world, ⟨events, .ok ()⟩) => (world, ⟨events, .ok ()⟩)
  | (world, ⟨events, .error e⟩) => (world, ⟨events, .error (.toolFailed e)⟩)

/-- Runs the tool on a script that has just been written, if it has. -/
def runWritten {σ : Type} (p : Project) (runner : Runner σ) (written : Disk × Report Path) (s : σ) :
    (Disk × σ) × Report Unit :=
  match written with
  | (d, ⟨events, .error e⟩) => ((d, s), ⟨events, .error e⟩)
  | (d, ⟨events, .ok script⟩) =>
    let (world, report) := p.run runner script d s
    (world, report.after events)

def create {σ : Type} (p : Project) (runner : Runner σ) (folder : Path) (d : Disk) (s : σ) :
    (Disk × σ) × Report Unit :=
  p.runWritten runner (p.createScript folder d) s

def build {σ : Type} (p : Project) (runner : Runner σ) (folder : Path)
    (request : Design.BuildRequest) (d : Disk) (s : σ) : (Disk × σ) × Report Unit :=
  if request.lacksOutput then ((d, s), .fail (.missingOutput .giveOutput))
  else p.runWritten runner (p.buildScript folder request d) s

end Project

end FpgaProject
