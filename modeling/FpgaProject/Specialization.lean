import FpgaProject.Disk.Access
import FpgaProject.Module

/-!
Specializations: files in a module's directory that say how the module is loaded.

The file for a module `m` is `module_m.toml`. Its table `module` makes it loadable; its tables
`test-bench` are configurations of test benches.
-/

namespace FpgaProject

/-- What a specialization file says. Without the table `module` it has no constructor. -/
structure Specialization where
  librarySuffix : Option Bool
  benches : List BenchConfig
deriving DecidableEq, Repr

namespace Specialization

/-- Where the specialization of the module `name` in the directory `dir` must stand. -/
def fileFor (dir : Path) (name : String) : Path :=
  dir.child ("module_" ++ name ++ ".toml")

/-- How the table `module` is read. -/
def constructorReader : Toml.RecordReader Bool Bool where
  name := "Constructor"
  fields := ["library-suffix"]
  defaulted := ["library-suffix"]
  start := false
  read _ _ i := i.asBoolean
  finish s := .ok s

def reader : Toml.RecordReader Specialization Specialization where
  name := "SpecializationFile"
  fields := ["module", "test-bench"]
  defaulted := ["test-bench"]
  start := ⟨none, []⟩
  read s name i := match name with
    | "module" => do .ok { s with librarySuffix := some (← constructorReader.decode i) }
    | _ => do .ok { s with benches := ← i.asList BenchConfig.ofItem }
  finish s := .ok s

def ofText (source : String) : Except Toml.Failure Specialization :=
  Toml.decodeText reader.decode source

/-- The module that a specialization file makes of its directory. -/
def load (d : Disk) (dir file : Path) : Except Error Module :=
  match d.readText file with
  | .error f => .error (.specializationLoad file (.fault f))
  | .ok source =>
    match ofText source with
    | .error f => .error (.specializationLoad file (.document f))
    | .ok ⟨none, _⟩ => .error (.missingConstructor file)
    | .ok ⟨some suffix, benches⟩ => .ok ⟨dir, suffix, benches⟩

end Specialization

end FpgaProject
