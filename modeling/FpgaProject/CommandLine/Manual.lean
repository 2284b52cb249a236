import FpgaProject.CommandLine.Help

/-!
The manual: a page for each topic.
-/

namespace FpgaProject.CommandLine

namespace Manual

def create : String := page [
  "NAME",
  "    create - generate and run the script that creates a project",
  "",
  "SYNOPSIS",
  "    vproj create [options] <dir>",
  "",
  "DESCRIPTION",
  "    This command makes the directory <dir> and writes the script",
  "    'create_vivado_project.tcl' into it. Vivado is then run in batch mode on the",
  "    script from inside <dir>.",
  "",
  "    The script creates the project for the selected part, adds every module's",
  "    synthesis sources into the module's own library, reads the constraints,",
  "    and sets the top level entity and its generics.",
  "",
  "    The directory must not already exist. It is kept even when vivado fails, so",
  "    the script and the vivado log can be inspected.",
  "",
  "    When the project file defines exactly one project, '--project' may be",
  "    omitted.",
  "",
  "OPTIONS",
  "    --project <name>",
  "        Project to create from the project file",
  "",
  "    --config <file>",
  "        Project file to read (default: Vproj.toml)",
  "",
  "    --vivado <path>",
  "        Vivado binary to run",
  "",
  "    --tcl-only",
  "        Write the creation script without running vivado",
  "",
  "    --verbose",
  "        Display the command being executed",
  "",
  "EXAMPLES",
  "    vproj create build/blinky",
  "    vproj create --project blinky --vivado /opt/Xilinx/Vivado/2017.4/bin/vivado build/blinky"]

def build : String := page [
  "NAME",
  "    build - generate and run the script that builds a project",
  "",
  "SYNOPSIS",
  "    vproj build [options] <dir>",
  "",
  "DESCRIPTION",
  "    This command writes the script 'build_vivado_project.tcl' into the",
  "    directory of an already created project and runs vivado on it.",
  "",
  "    Synthesis is run first and its timing is checked. A design whose worst",
  "    negative slack is below -90 ns is assumed to be broken and the build stops.",
  "    Unless '--synth-only' is set, implementation follows and must close timing",
  "    with a worst negative slack of at least 0 ns. The bitstream and hardware",
  "    definition are then written to the '--output' directory, which is required",
  "    in that case.",
  "",
  "    Runs use at most 8 threads no matter the value of '--threads'.",
  "",
  "OPTIONS",
  "    --project <name>",
  "        Project to build from the project file",
  "",
  "    --config <file>",
  "        Project file to read (default: Vproj.toml)",
  "",
  "    --output <dir>",
  "        Directory to write the bitstream and hardware into",
  "",
  "    --synth-only",
  "        Stop after synthesis",
  "",
  "    --threads <n>",
  "        Number of parallel jobs for each run (default: 12)",
  "",
  "    --vivado <path>",
  "        Vivado binary to run",
  "",
  "    --tcl-only",
  "        Write the build script without running vivado",
  "",
  "    --verbose",
  "        Display the command being executed",
  "",
  "EXAMPLES",
  "    vproj build --output out/blinky build/blinky",
  "    vproj build --synth-only --threads 4 build/blinky"]

def list : String := page [
  "NAME",
  "    list - display the projects defined in the project file",
  "",
  "SYNOPSIS",
  "    vproj list [options]",
  "",
  "DESCRIPTION",
  "    This command reads the project file, discovers the modules of every project",
  "    it defines, and displays where each project was defined along with its name",
  "    and top level entity.",
  "",
  "OPTIONS",
  "    --config <file>",
  "        Project file to read (default: Vproj.toml)",
  "",
  "EXAMPLES",
  "    vproj list",
  "    vproj list --config fpga/Vproj.toml"]

def config : String := page [
  "NAME",
  "    config - the project file format",
  "",
  "DESCRIPTION",
  "    A project file, named 'Vproj.toml' by default, defines projects as an array",
  "    of tables. Relative paths are resolved against the directory holding the",
  "    project file.",
  "",
  "    [[project]]",
  "    name = \"blinky\"                 # required",
  "    part = \"xc7z020clg400-1\"        # required",
  "    top = \"blinky_top\"              # default: <name>_top",
  "    block-design = \"bd/system.tcl\"  # sourced before the top level is set",
  "    vivado = \"/opt/vivado/bin/vivado\"",
  "    modules = [\"modules\"]           # directories holding the modules",
  "    names = [\"blinky\", \"resync\"]    # keep only these modules",
  "    library-suffix = false          # name libraries <module>_lib",
  "    clock-crossings = \"tcl/cdc.tcl\" # replaces the bundled constraint",
  "    generics = \x7b enable = true, width = 8, init = \"4'b0101\" \x7d",
  "",
  "    [[project.constraint]]",
  "    file = \"pinning.tcl\"            # required",
  "    ref = \"blinky\"                  # scope to instances of this entity",
  "    used-in = \"impl\"                # all, synth, or impl (default: all)",
  "",
  "    Generics keep the order they are written in. Booleans are passed to vivado",
  "    as 1'b1 and 1'b0.",
  "",
  "MODULE SPECIALIZATION",
  "    A module directory may hold 'module_<name>.toml' to change how the module is",
  "    loaded. The file must contain a [module] table and may list testbench",
  "    configurations.",
  "",
  "    [module]",
  "    library-suffix = true",
  "",
  "    [[test-bench]]",
  "    name = \"tb_resync\"",
  "    config = \"fast\"",
  "    generics = \x7b stages = 2 \x7d"]

def overview : String := page [
  "NAME",
  "    vproj - vivado project compiler",
  "",
  "SYNOPSIS",
  "    vproj [options] [command]",
  "",
  "DESCRIPTION",
  "    Vproj reads a declarative project file describing one or more FPGA designs",
  "    and turns each into the TCL scripts vivado needs to create and build the",
  "    project. Vivado is then run in batch mode on the generated script.",
  "",
  "    HDL sources are organized into modules. A module is any directory found",
  "    directly inside one of the module roots listed in the project file. Its",
  "    synthesis sources sit directly in the module directory and its testbenches",
  "    in 'test/'. Constraints for the module's entities go in",
  "    'entity_constraints/'.",
  "",
  "COMMANDS",
  "    create",
  "        Generate and run the script that creates a project",
  "",
  "    build",
  "        Generate and run the script that builds a project",
  "",
  "    list",
  "        Display the projects defined in the project file",
  "",
  "OPTIONS",
  "    --version",
  "        Print version information and exit",
  "",
  "    --color <when>",
  "        Coloring: auto, always, never",
  "",
  "    --help, -h",
  "        Print help information",
  "",
  "ENVIRONMENT",
  "    VPROJ_VIVADO",
  "        Vivado binary to run when neither the command-line nor the project",
  "        file sets one",
  "",
  "    VPROJ_LOG",
  "        Filter for diagnostic messages written to stderr (default: warn)",
  "",
  "Use 'vproj help config' to read about the project file format."]

inductive Topic where
  | create
  | build
  | list
  | config
deriving DecidableEq, Repr

namespace Topic

def all : List Topic := [.create, .build, .list, .config]

def name : Topic → String
  | .create => "create"
  | .build => "build"
  | .list => "list"
  | .config => "config"

def page : Topic → String
  | .create => Manual.create
  | .build => Manual.build
  | .list => Manual.list
  | .config => Manual.config

def read (s : String) : Except String Topic :=
  match all.find? (·.name = s) with
  | some t => .ok t
  | none => .error ("topic '" ++ s ++ "' not found")

end Topic

def contents : String :=
  CommandLine.page (Topic.all.map Topic.name)

end Manual

end FpgaProject.CommandLine
