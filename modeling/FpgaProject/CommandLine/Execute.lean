import FpgaProject.CommandLine.Command
import FpgaProject.Config
import FpgaProject.Process.Batch

/-!
Carrying out commands.

A command says what it is about to do, does it, and says what has come of it. What it has said stays
said if it fails. A build reports the results that its script exports, and the timing otherwise.
-/

namespace FpgaProject.CommandLine

/-- What the surroundings provide: how programs are started, and the tool that is named there. -/
structure Surroundings where
  launch : Launcher
  tool : Option String

/-- The disk, what has been printed, what is reported, and what has come of it. -/
abbrev Execution := (Disk × Screen) × Report Unit

/-- The configuration that is read. -/
def Choice.file (c : Choice) : Path :=
  c.config.getD ⟨configFile⟩

def Choice.openProject (c : Choice) (d : Disk) (environment : Option String) : Report Project :=
  FpgaProject.openProject d environment c.file c.project c.tool

/-- The line about something that has been done or is about to be done. -/
def infoLine (s : String) : String :=
  "info: " ++ s ++ "\n"

/-- What has come of writing a script and nothing else. -/
def scriptWritten (written : Disk × Report Path) : Execution :=
  match written with
  | (d, ⟨events, .error e⟩) => ((d, {}), ⟨events, .error e⟩)
  | (d, ⟨events, .ok script⟩) =>
    ((d, .showing (infoLine ("wrote script " ++ script.text))), ⟨events, .ok ()⟩)

def thenPrint (line : String) : Execution → Execution
  | ((d, screen), ⟨events, .ok ()⟩) => ((d, screen.print line), ⟨events, .ok ()⟩)
  | failed => failed

def withProject (d : Disk) (opened : Report Project) (act : Project → Execution) : Execution :=
  match opened with
  | ⟨events, .error e⟩ => ((d, {}), ⟨events, .error e⟩)
  | ⟨events, .ok p⟩ =>
    let (world, report) := act p
    (world, report.after events)

def CreateCommand.execute (c : CreateCommand) (s : Surroundings) (d : Disk) : Execution :=
  withProject d (c.choice.openProject d s.tool) fun p =>
    if c.scriptOnly then scriptWritten (p.createScript c.dir d)
    else
      let screen : Screen :=
        .showing (infoLine ("creating project " ++ p.name ++ " in " ++ c.dir.text))
      thenPrint (infoLine ("created project file " ++ (p.projectFile c.dir).text))
        (p.create (Batch.runner s.launch c.verbose) c.dir d screen)

def BuildCommand.request (c : BuildCommand) : Design.BuildRequest where
  synthesisOnly := c.synthesisOnly
  threads := c.threads.getD defaultThreads
  output := c.output

def BuildCommand.conclusion (c : BuildCommand) : String :=
  match c.synthesisOnly, c.output with
  | false, some output => infoLine ("wrote bitstream and hardware to " ++ output.text)
  | _, _ => infoLine "synthesis met the timing limit"

def BuildCommand.execute (c : BuildCommand) (s : Surroundings) (d : Disk) : Execution :=
  withProject d (c.choice.openProject d s.tool) fun p =>
    if c.scriptOnly then scriptWritten (p.buildScript c.dir c.request d)
    else
      let screen : Screen :=
        .showing (infoLine ("building project " ++ p.name ++ " in " ++ c.dir.text))
      thenPrint c.conclusion
        (p.build (Batch.runner s.launch c.verbose) c.dir c.request d screen)

/-- The descriptions of projects, with an empty line between them. -/
def listing (file : Path) (ps : List Project) : String :=
  (if ps.isEmpty then infoLine ("no projects are defined in " ++ file.text) else "") ++
    "\n\n".intercalate (ps.map Project.summary) ++ "\n"

def executeList (config : Option Path) (s : Surroundings) (d : Disk) : Execution :=
  let file := config.getD ⟨configFile⟩
  match openProjects d s.tool file with
  | ⟨events, .error e⟩ => ((d, {}), ⟨events, .error e⟩)
  | ⟨events, .ok ps⟩ => ((d, .showing (listing file ps)), ⟨events, .ok ()⟩)

def showPage (text : String) (d : Disk) : Execution :=
  ((d, .showing (text ++ "\n")), pure ())

def Command.execute (s : Surroundings) (d : Disk) : Command → Execution
  | .create c => c.execute s d
  | .build c => c.execute s d
  | .list config => executeList config s d
  | .help true _ => showPage Manual.contents d
  | .help false (some topic) => showPage topic.page d
  | .help false none => showPage Manual.overview d

def release : String := "0.1.0"

/-- Carries out what a command line asks for: the version first of all. -/
def Invocation.execute (i : Invocation) (s : Surroundings) (d : Disk) : Execution :=
  if i.version then showPage ("vproj " ++ release) d
  else match i.command with
    | some c => c.execute s d
    | none => showPage Help.overview d

end FpgaProject.CommandLine
