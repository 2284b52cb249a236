import FpgaProject.CommandLine.Arguments
import FpgaProject.CommandLine.Manual
import FpgaProject.Path.Basic
import FpgaProject.Text.Natural

/-!
The commands, and how they are read from a command line.

Each command takes its flags first, then its options, then its positional arguments; what stands at
the wrong place is found by what is left over.
-/

namespace FpgaProject.CommandLine

inductive ColourMode where
  | always
  | never
  | auto
deriving DecidableEq, Repr

/-- What a project is chosen by, and the tool that it is run with. -/
structure Choice where
  project : Option String
  config : Option Path
  tool : Option String
deriving DecidableEq, Repr

structure CreateCommand where
  dir : Path
  choice : Choice
  scriptOnly : Bool
  verbose : Bool
deriving DecidableEq, Repr

structure BuildCommand where
  dir : Path
  choice : Choice
  output : Option Path
  threads : Option Nat
  synthesisOnly : Bool
  scriptOnly : Bool
  verbose : Bool
deriving DecidableEq, Repr

inductive Command where
  | create (c : CreateCommand)
  | build (c : BuildCommand)
  | list (config : Option Path)
  | help (contents : Bool) (topic : Option Manual.Topic)
deriving DecidableEq, Repr

structure Invocation where
  version : Bool
  colour : Option ColourMode
  command : Option Command
deriving DecidableEq, Repr

/-! ### Values -/

def ColourMode.read : Taking.ValueReader ColourMode
  | "always" => .ok .always
  | "never" => .ok .never
  | "auto" => .ok .auto
  | s => .error ("unknown coloring mode '" ++ s ++ "': expected auto, always, or never")

def readPath : Taking.ValueReader Path := fun s => .ok ⟨s⟩

def readCount : Taking.ValueReader Nat := fun s =>
  (Text.readNatural s).mapError Text.NumberFault.message

/-! ### Commands -/

open Taking

def configOption : Taking (Option Path) :=
  option "config" "file" readPath

def toolOption : Taking (Option String) :=
  option "vivado" "path" anyText

def projectOption : Taking (Option String) :=
  option "project" "name" anyText

def takeCreate : Taking Command := do
  help Help.create
  let scriptOnly ← flag "tcl-only"
  let verbose ← flag "verbose"
  let project ← projectOption
  let config ← configOption
  let tool ← toolOption
  let dir ← positional "dir" readPath
  pure (.create ⟨dir, ⟨project, config, tool⟩, scriptOnly, verbose⟩)

def takeBuild : Taking Command := do
  help Help.build
  let synthesisOnly ← flag "synth-only"
  let scriptOnly ← flag "tcl-only"
  let verbose ← flag "verbose"
  let project ← projectOption
  let config ← configOption
  let output ← option "output" "dir" readPath
  let threads ← option "threads" "n" readCount
  let tool ← toolOption
  let dir ← positional "dir" readPath
  pure (.build
    ⟨dir, ⟨project, config, tool⟩, output, threads, synthesisOnly, scriptOnly, verbose⟩)

def takeList : Taking Command := do
  help Help.list
  pure (.list (← configOption))

def takeHelp : Taking Command := do
  help Help.manual
  let contents ← flag "list"
  let topic ← positional? "topic" Manual.Topic.read
  pure (.help contents topic)

def commandNames : List String :=
  ["create", "build", "list", "help"]

def takeCommand : Taking (Option Command) := do
  match ← command? "command" commandNames with
  | none => pure none
  | some name => do
    let command ← match name with
      | "create" => takeCreate
      | "build" => takeBuild
      | "list" => takeList
      | _ => takeHelp
    finish
    pure (some command)

def takeAll : Taking Invocation := do
  help Help.overview
  let version ← flag "version"
  let colour ← option "color" "when" ColourMode.read
  let command ← takeCommand
  finish
  pure ⟨version, colour, command⟩

def Invocation.ofArguments (args : List String) : Except Refusal Invocation :=
  (takeAll.run (.ofList args)).map Prod.fst

end FpgaProject.CommandLine
