import FpgaProject.Disk.Fault
import FpgaProject.Path.Absolute
import FpgaProject.Text.Lowered
import FpgaProject.Toml.Misfit
import FpgaProject.Usage

/-!
What can go wrong, and how it is said.

An error names its cause; the cause of a larger failure is an error of its own and is said inside
the larger message with its first letter lowered. Some errors come with a hint in a paragraph of its
own, whose first word can be coloured.
-/

namespace FpgaProject

inductive Hint where
  | listProjects
  | selectProject
  | giveOutput
  | buildInstead
deriving DecidableEq, Repr

/-- The reasons for which an operation fails. -/
inductive Error where
  | pathExists (path : Path) (hint : Hint)
  | missingOutput (hint : Hint)
  | projectFileNotFound (path : Path)
  | exitCode (code : Int)
  | terminated
  | toolFailed (cause : Error)
  | specializationLoad (file : Path) (cause : Error)
  | missingConstructor (file : Path)
  | projectNotFound (name : String) (hint : Hint)
  | projectNotSpecified (hint : Hint)
  | noProjects (file : Path)
  | unknownUsage (word : String)
  | configParse (file : Path) (cause : Error)
  | configNotFound (file : Path)
  | fault (f : Fault)
  | document (f : Toml.Failure)
  | other (text : String)
deriving DecidableEq, Repr

def plainAgain : String := "\x1b[0m"

/-- A text in which `again` follows each `plainAgain`. -/
def resumed (again : List Char) (s : List Char) : List Char :=
  match s with
  | [] => []
  | c :: rest =>
    if plainAgain.toList.isPrefixOf (c :: rest) then
      plainAgain.toList ++ again ++ resumed again (rest.drop (plainAgain.length - 1))
    else c :: resumed again rest
termination_by s.length
decreasing_by all_goals simp only [List.length_drop, List.length_cons]; omega

/-- A text in bold or in colour, by the code of the terminal. Where the text itself ends a
highlight, the code is given again. -/
def highlighted (code : String) (s : String) : String :=
  let start := "\x1b[" ++ code ++ "m"
  start ++ String.ofList (resumed start.toList s.toList) ++ plainAgain

def Hint.advice : Hint → String
  | .listProjects => "use `vproj list` to see the list of defined projects"
  | .selectProject =>
    "use \"--project\" to select one of the projects defined in the configuration"
  | .giveOutput =>
    "pass \"--output <dir>\" to export the bitstream or use \"--synth-only\""
  | .buildInstead => "use `vproj build` to build an existing project directory"

def Hint.paragraph (h : Hint) (coloured : Bool) : String :=
  "\n\n" ++ (if coloured then highlighted "32" "hint" else "hint") ++ ": " ++
    Text.lowered h.advice

def Path.quoted (p : Path) : String :=
  Text.quoted p.text

/-- The message of an error; `coloured` is about the hint alone. -/
def Error.message (coloured : Bool) : Error → String
  | .pathExists path hint =>
    "path " ++ path.quoted ++ " already exists" ++ hint.paragraph coloured
  | .missingOutput hint =>
    "an output path must be specified when running implementation" ++ hint.paragraph coloured
  | .projectFileNotFound path =>
    "project file does not exist in the specified location: " ++ path.quoted
  | .exitCode code => "exited with error code: " ++ toString code
  | .terminated => "terminated by signal"
  | .toolFailed cause =>
    "failed to execute vivado process: " ++ Text.lowered (cause.message coloured)
  | .specializationLoad file cause =>
    "failed to load module specialization " ++ file.quoted ++ ": " ++
      Text.lowered (cause.message coloured)
  | .missingConstructor file =>
    "module specialization " ++ file.quoted ++ " does not define a [module] constructor table"
  | .projectNotFound name hint =>
    "no project named " ++ Text.quoted name ++ hint.paragraph coloured
  | .projectNotSpecified hint => "a project must be specified" ++ hint.paragraph coloured
  | .noProjects file => "no projects are defined in " ++ file.quoted
  | .unknownUsage word => Usage.complaint word
  | .configParse file cause =>
    "failed to parse " ++ file.quoted ++ ": " ++ Text.lowered (cause.message coloured)
  | .configNotFound file => "missing configuration file " ++ file.quoted
  | .fault f => f.message
  | .document f => f.message
  | .other text => text

end FpgaProject
