import FpgaProject.Bench
import FpgaProject.Constraint
import FpgaProject.Disk.Listing
import FpgaProject.Report

/-!
Modules: directories of sources that are compiled into one library.

What a module consists of is read from the disk each time it is asked for. Its synthesis sources
stand directly in its directory, its test benches in `test`, and the constraints for its entities in
`entity_constraints`. Setting up the test benches hands their configurations one after another to a
context, which may refuse one; then no more are handed over.

There are two kinds of modules: plain ones, and those with configurations of test benches, which a
specialization file describes. Both answer what they are asked for in the same way. A kind with
answers of its own, such as another list of synthesis sources, is not covered.
-/

namespace FpgaProject

/-- A module: its directory, whether its library has the old suffix, and the configurations of its
test benches. -/
structure Module where
  path : Path
  librarySuffix : Bool
  benches : List BenchConfig
deriving DecidableEq, Repr

namespace Module

/-- A module without configurations of test benches. -/
def plain (path : Path) (librarySuffix : Bool) : Module :=
  ⟨path, librarySuffix, []⟩

/-- A module is named after its directory. -/
def name (m : Module) : String :=
  m.path.fileName?.getD m.path.text

/-- The library into which the sources of the module are compiled. -/
def library (m : Module) : String :=
  if m.librarySuffix then m.name ++ "_lib" else m.name

def sourceExtensions : List String := ["vhd", "v"]

/-- The source files directly in a directory, in the order of their names. -/
def sourcesIn (d : Disk) (dir : Path) : List Path :=
  (d.list dir fun _ => true).filter fun p => d.isFile p && p.hasExtension sourceExtensions

def synthesisFiles (m : Module) (d : Disk) : List Path :=
  sourcesIn d m.path

def simulationFiles (m : Module) (d : Disk) : List Path :=
  sourcesIn d m.path ++ sourcesIn d (m.path.child "test")

/-- The constraints for entities of the module, each named after its file. -/
def entityConstraints (m : Module) (d : Disk) : List Constraint :=
  ((d.list (m.path.child "entity_constraints") fun n => n.endsWith ".tcl").filter d.isFile).map
    fun p => .ofEntityFile p .all

/-- Options for setting up test benches. -/
abbrev BenchOptions := List (String × String)

def benchOption : String := "bench"

def wantedBenches (m : Module) (options : BenchOptions) : List BenchConfig :=
  match options.lookup benchOption with
  | some only => m.benches.filter (·.name = only)
  | none => m.benches

/-- What takes the configurations of test benches. It is asked in a state and gives the next one, or
refuses. -/
abbrev BenchContext (σ : Type) := σ → BenchConfig → Except Error σ

/-- Hands configurations to a context until one is refused. -/
def handOver {σ : Type} (modul : String) (context : BenchContext σ) :
    σ → List BenchConfig → σ × Report Unit
  | s, [] => (s, pure ())
  | s, b :: bs =>
    let said := Event.benchAdded modul b.config b.name
    match context s b with
    | .error e => (s, ⟨[said], .error e⟩)
    | .ok s =>
      let (s, report) := handOver modul context s bs
      (s, report.after [said])

def configureBenches {σ : Type} (m : Module) (context : BenchContext σ) (options : BenchOptions)
    (s : σ) : σ × Report Unit :=
  handOver m.name context s (m.wantedBenches options)

end Module

end FpgaProject
