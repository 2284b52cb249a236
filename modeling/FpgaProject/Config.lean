import FpgaProject.Project
import FpgaProject.Registry

/-!
Configurations: documents that describe projects.

Relative paths in a configuration start at the directory of its file.
-/

namespace FpgaProject

/-- The name that a configuration has if no other is given. -/
def configFile : String := "Vproj.toml"

structure ProjectEntry where
  name : String
  part : String
  top : Option String := none
  blockDesign : Option Path := none
  tool : Option String := none
  modules : List Path := []
  names : Option (List String) := none
  librarySuffix : Bool := false
  generics : Generics := .empty
  constraints : List Constraint := []
  clockCrossings : Option Path := none
deriving DecidableEq, Repr

namespace ProjectEntry

def toItem (p : ProjectEntry) : Toml.Item :=
  let paths (ps : List Path) := Toml.Item.ofList (ps.map fun q => .ofString q.text)
  .ofEntries (
    [("name", .ofString p.name), ("part", .ofString p.part)] ++
    (p.top.toList.map fun s => ("top", .ofString s)) ++
    (p.blockDesign.toList.map fun q => ("block-design", .ofString q.text)) ++
    (p.tool.toList.map fun s => ("vivado", .ofString s)) ++
    [("modules", paths p.modules)] ++
    (p.names.toList.map fun ns => ("names", .ofList (ns.map .ofString))) ++
    [("library-suffix", .ofScalar (.boolean p.librarySuffix)),
      ("generics", p.generics.toItem),
      ("constraint", .ofList (p.constraints.map Constraint.toItem))] ++
    (p.clockCrossings.toList.map fun q => ("clock-crossings", .ofString q.text)))

def pathOfItem (i : Toml.Item) : Except Toml.Misfit Path := do
  .ok ⟨← i.asString "path string"⟩

def stringOfItem (i : Toml.Item) : Except Toml.Misfit String :=
  i.asString "a string"

structure Fields where
  name : Option String := none
  part : Option String := none
  entry : ProjectEntry := { name := "", part := "" }
deriving Repr

def reader : Toml.RecordReader Fields ProjectEntry where
  name := "ProjectEntry"
  fields := ["name", "part", "top", "block-design", "vivado", "modules", "names",
    "library-suffix", "generics", "constraint", "clock-crossings"]
  defaulted := ["modules", "library-suffix", "generics", "constraint"]
  start := {}
  read s name i :=
    let keep (entry : ProjectEntry) : Fields := { s with entry := entry }
    match name with
    | "name" => do .ok { s with name := some (← stringOfItem i) }
    | "part" => do .ok { s with part := some (← stringOfItem i) }
    | "top" => do .ok (keep { s.entry with top := some (← stringOfItem i) })
    | "block-design" => do .ok (keep { s.entry with blockDesign := some (← pathOfItem i) })
    | "vivado" => do .ok (keep { s.entry with tool := some (← stringOfItem i) })
    | "modules" => do .ok (keep { s.entry with modules := ← i.asList pathOfItem })
    | "names" => do .ok (keep { s.entry with names := some (← i.asList stringOfItem) })
    | "library-suffix" => do .ok (keep { s.entry with librarySuffix := ← i.asBoolean })
    | "generics" => do .ok (keep { s.entry with generics := ← Generics.ofItem i })
    | "constraint" => do .ok (keep { s.entry with constraints := ← i.asList Constraint.ofItem })
    | _ => do .ok (keep { s.entry with clockCrossings := some (← pathOfItem i) })
  finish s := do
    .ok { s.entry with
      name := ← Toml.required "name" s.name
      part := ← Toml.required "part" s.part }

def ofItem (i : Toml.Item) : Except Toml.Misfit ProjectEntry :=
  reader.decode i

/-- Discovers the modules of an entry and assembles its project. Relative paths start at `root`. -/
def toProject (p : ProjectEntry) (d : Disk) (root : Path) (tool : String)
    (definedAt : Option String) : Report Project := do
  let registry : Registry := { Registry.empty with librarySuffix := p.librarySuffix }
  let modules ← registry.discover d (p.modules.map root.resolve) p.names
  Project.assemble d p.name modules p.part {
    top := p.top
    blockDesign := p.blockDesign.map root.resolve
    generics := p.generics
    tool := some tool
    constraints := p.constraints.map (·.relativeTo root)
    definedAt := definedAt
    clockCrossings := p.clockCrossings.map root.resolve }

end ProjectEntry

/-- A configuration: the projects in the order in which they are described. -/
structure Config where
  projects : List ProjectEntry
deriving DecidableEq, Repr

namespace Config

def toItem (c : Config) : Toml.Item :=
  .ofEntries [("project", .ofList (c.projects.map ProjectEntry.toItem))]

def reader : Toml.RecordReader (List ProjectEntry) Config where
  name := "Config"
  fields := ["project"]
  defaulted := ["project"]
  start := []
  read _ _ i := i.asList ProjectEntry.ofItem
  finish ps := .ok ⟨ps⟩

def ofItem (i : Toml.Item) : Except Toml.Misfit Config :=
  reader.decode i

def ofText (source : String) : Except Toml.Failure Config :=
  Toml.decodeText ofItem source

def ofFile (d : Disk) (file : Path) : Except Error Config :=
  if d.pathExists file then
    match d.readText file with
    | .error f => .error (.fault f)
    | .ok source =>
      match ofText source with
      | .error f => .error (.configParse file (.document f))
      | .ok c => .ok c
  else .error (.configNotFound file)

/-- Picks the project with a name. Without a name there must be exactly one. -/
def select (c : Config) (name : Option String) (file : Path) : Except Error ProjectEntry :=
  match name with
  | some n =>
    match c.projects.find? (·.name = n) with
    | some p => .ok p
    | none => .error (.projectNotFound n .listProjects)
  | none =>
    match c.projects with
    | [] => .error (.noProjects file)
    | [p] => .ok p
    | _ => .error (.projectNotSpecified .selectProject)

end Config

/-- The tool to run: the first that is named by the command line, by the project or, not being
empty, by the environment. -/
def selectTool (commandLine project environment : Option String) : String :=
  ((commandLine.or project).or (environment.filter (· ≠ ""))).getD defaultTool

/-- The directory at which the relative paths of a configuration start. -/
def configRoot (file : Path) : Path :=
  match file.parent? with
  | some p => if p.text.isEmpty then ⟨"."⟩ else p
  | none => ⟨"."⟩

def openProject (d : Disk) (environment : Option String) (file : Path) (name tool : Option String) :
    Report Project := do
  let c ← .ofExcept (Config.ofFile d file)
  let p ← .ofExcept (c.select name file)
  Report.say (.selected p.name file)
  p.toProject d (configRoot file) (selectTool tool p.tool environment) (some file.text)

def openProjects (d : Disk) (environment : Option String) (file : Path)
    : Report (List Project) := do
  let c ← .ofExcept (Config.ofFile d file)
  c.projects.mapM fun p =>
    p.toProject d (configRoot file) (selectTool none p.tool environment) (some file.text)

end FpgaProject
