import FpgaProject.Path.Absolute
import FpgaProject.Toml.Decode
import FpgaProject.Usage

/-!
Constraints: scripts that are read into a project, for the whole design or for one entity.
-/

namespace FpgaProject

/-- A constraint: its file, the entity to which it is confined, and where it is used. -/
structure Constraint where
  file : Path
  reference : Option String
  usage : Usage
deriving DecidableEq, Repr

namespace Constraint

/-- A constraint for the whole design, used in every stage. -/
def ofFile (file : Path) : Constraint :=
  ⟨file, none, .all⟩

def ofEntityFile (file : Path) (usage : Usage) : Constraint :=
  ⟨file, file.stem?, usage⟩

/-- The constraint with a relative file taken to start at `root`. -/
def relativeTo (c : Constraint) (root : Path) : Constraint :=
  { c with file := root.resolve c.file }

def toItem (c : Constraint) : Toml.Item :=
  .ofEntries (
    [("file", .ofString c.file.text)] ++
    (c.reference.toList.map fun r => ("ref", .ofString r)) ++
    [("used-in", .ofString c.usage.word)])

/-- Reads a usage. A word that is none gives a misfit without a place of its own. -/
def usageOfItem (i : Toml.Item) : Except Toml.Misfit Usage := do
  let s ← i.asString "a string"
  match Usage.ofWord? s with
  | some u => .ok u
  | none => .error ⟨.refused (Usage.complaint s), none⟩

structure Fields where
  file : Option Path := none
  reference : Option String := none
  usage : Usage := .all
deriving Repr

def reader : Toml.RecordReader Fields Constraint where
  name := "Constraint"
  fields := ["file", "ref", "used-in"]
  defaulted := ["used-in"]
  start := {}
  read s name i := match name with
    | "file" => do .ok { s with file := some ⟨← i.asString "path string"⟩ }
    | "ref" => do .ok { s with reference := some (← i.asString "a string") }
    | _ => do .ok { s with usage := ← usageOfItem i }
  finish s := do
    .ok ⟨← Toml.required "file" s.file, s.reference, s.usage⟩

def ofItem (i : Toml.Item) : Except Toml.Misfit Constraint :=
  reader.decode i

end Constraint

end FpgaProject
