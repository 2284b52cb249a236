/-!
The help pages of the commands. Each is printed with a line feed behind it.
-/

namespace FpgaProject.CommandLine

def page (lines : List String) : String :=
  String.join (lines.map (· ++ "\n"))

namespace Help

def create : String := page [
  "Create a vivado project.",
  "",
  "Usage:",
  "    vproj create [options] <dir>",
  "",
  "Args:",
  "    <dir>                   directory to create the project in",
  "",
  "Options:",
  "    --project <name>        project to create from the project file",
  "    --config <file>         project file to read (default: Vproj.toml)",
  "    --vivado <path>         vivado binary to run",
  "    --tcl-only              write the creation script without running vivado",
  "    --verbose               display the command being executed",
  "",
  "Use 'vproj help create' to read more about the command."]

def build : String := page [
  "Build an existing vivado project.",
  "",
  "Usage:",
  "    vproj build [options] <dir>",
  "",
  "Args:",
  "    <dir>                   directory holding the project",
  "",
  "Options:",
  "    --project <name>        project to build from the project file",
  "    --config <file>         project file to read (default: Vproj.toml)",
  "    --output <dir>          directory to write the bitstream and hardware into",
  "    --synth-only            stop after synthesis",
  "    --threads <n>           number of parallel jobs for each run (default: 12)",
  "    --vivado <path>         vivado binary to run",
  "    --tcl-only              write the build script without running vivado",
  "    --verbose               display the command being executed",
  "",
  "Use 'vproj help build' to read more about the command."]

def list : String := page [
  "Display the projects of a project file.",
  "",
  "Usage:",
  "    vproj list [options]",
  "",
  "Options:",
  "    --config <file>         project file to read (default: Vproj.toml)",
  "",
  "Use 'vproj help list' to read more about the command."]

def manual : String := page [
  "Read in-depth documentation on vproj topics.",
  "",
  "Usage:",
  "    vproj help [options] [<topic>]",
  "",
  "Args:",
  "    <topic>         a listed topic or any vproj subcommand",
  "",
  "Options:",
  "    --list          display the available topics",
  "",
  "Use 'vproj help --list' to see all available topics."]

/-- All commands. The last line stands open. -/
def overview : String := page [
  "Vproj creates and builds vivado projects from a project file.",
  "",
  "Usage:",
  "    vproj [options] [command]",
  "",
  "Commands:",
  "    create                generate and run the script that creates a project",
  "    build                 generate and run the script that builds a project",
  "    list                  display the projects defined in the project file",
  "",
  "Options:",
  "    --version             print version information and exit",
  "    --color <when>        coloring: auto, always, never",
  "    --help, -h            print help information",
  ""] ++
  "Use 'vproj help <command>' for more information about a command."

end Help

end FpgaProject.CommandLine
