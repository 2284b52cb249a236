import FpgaProject.Usage

/-!
The commands of the generated scripts.

A script is a list of commands; each takes one line or, where it can end the run, several. The text
of a script is that of its lines, each closed by a line feed.
-/

namespace FpgaProject.Script

/-- A command of a script. Paths stand as they are written. -/
inductive Command where
  | blank
  | createProject (name folder part : String)
  | setLanguage
  | readSources (library : String) (files : List String)
  | source (file : String)
  | setGenerics (bindings : String)
  | readConstraint (reference : Option String) (file : String)
  | leaveOut (stage : Stage) (file : String)
  | setTop (top : String)
  | reorderFiles
  | openProject (file : String)
  | limitThreads (count : Nat)
  | launch (run : String)
  | await (run : String)
  | requireComplete (run : String)
  | openRun (run : String)
  | requireSlack (limit : Int) (complaint : String)
  | writeBitstream (file : String)
  | writeHardware (file : String)
  | exit
deriving DecidableEq, Repr

def stageProperty : Stage → String
  | .synthesis => "used_in_synthesis"
  | .implementation => "used_in_implementation"

def complainIf (condition complaint : String) : List String :=
  ["if \x7b" ++ condition ++ "\x7d \x7b",
   "  puts \"ERROR: " ++ complaint ++ "\"",
   "  exit 1",
   "\x7d"]

def Command.lines : Command → List String
  | .blank => [""]
  | .createProject name folder part =>
    ["create_project " ++ name ++ " " ++ folder ++ " -part " ++ part]
  | .setLanguage => ["set_property target_language VHDL [current_project]"]
  | .readSources library files =>
    ["read_vhdl -library " ++ library ++ " -vhdl2008 \x7b" ++ " ".intercalate files ++ "\x7d"]
  | .source file => ["source " ++ file]
  | .setGenerics bindings =>
    ["set_property generic \x7b" ++ bindings ++ "\x7d [current_fileset]"]
  | .readConstraint (some reference) file =>
    ["read_xdc -ref " ++ reference ++ " -unmanaged " ++ file]
  | .readConstraint none file => ["read_xdc -unmanaged " ++ file]
  | .leaveOut stage file =>
    ["set_property " ++ stageProperty stage ++ " false [get_files " ++ file ++ "]"]
  | .setTop top => ["set_property top " ++ top ++ " [current_fileset]"]
  | .reorderFiles => ["reorder_files -auto -disable_unused"]
  | .openProject file => ["open_project " ++ file]
  | .limitThreads count => ["set_param general.maxThreads " ++ toString count]
  | .launch run => ["launch_runs " ++ run]
  | .await run => ["wait_on_run " ++ run]
  | .requireComplete run =>
    complainIf ("[get_property PROGRESS [get_runs " ++ run ++ "]] != \"100%\"")
      ("Run " ++ run ++ " failed.")
  | .openRun run => ["open_run " ++ run]
  | .requireSlack limit complaint =>
    complainIf
      ("[expr \x7b[get_property SLACK [get_timing_paths -delay_type min_max]] < " ++
        toString limit ++ "\x7d]")
      complaint
  | .writeBitstream file => ["write_bitstream " ++ file]
  | .writeHardware file => ["write_hwdef " ++ file]
  | .exit => ["exit"]

def lines (s : List Command) : List String :=
  s.flatMap Command.lines

def text (s : List Command) : String :=
  String.join ((lines s).map (· ++ "\n"))

end FpgaProject.Script
