import FpgaProject.Generic

/-!
Configurations of test benches.
-/

namespace FpgaProject

structure BenchConfig where
  name : String
  config : String
  generics : Generics
deriving DecidableEq, Repr

namespace BenchConfig

/-- The configuration as a table of a document. -/
def toItem (b : BenchConfig) : Toml.Item :=
  .ofEntries [
    ("name", .ofString b.name),
    ("config", .ofString b.config),
    ("generics", b.generics.toItem)]

/-- What has been read of a configuration. -/
structure Fields where
  name : Option String := none
  config : Option String := none
  generics : Generics := .empty
deriving Repr

def reader : Toml.RecordReader Fields BenchConfig where
  name := "BenchConfig"
  fields := ["name", "config", "generics"]
  defaulted := ["generics"]
  start := {}
  read s name i := match name with
    | "name" => do .ok { s with name := some (← i.asString "a string") }
    | "config" => do .ok { s with config := some (← i.asString "a string") }
    | _ => do .ok { s with generics := ← Generics.ofItem i }
  finish s := do
    .ok ⟨← Toml.required "name" s.name, ← Toml.required "config" s.config, s.generics⟩

def ofItem (i : Toml.Item) : Except Toml.Misfit BenchConfig :=
  reader.decode i

end BenchConfig

end FpgaProject
