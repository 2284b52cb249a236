import FpgaProject.Specialization

/-!
Discovery of modules.

The candidates are the directories directly below the roots, in the order of the roots and of their
names. A module is made of each candidate by the first of these that applies: the factory registered
for its name, its specialization file, the default. The first one that cannot be loaded ends the
discovery; names that come again are reported and kept.
-/

namespace FpgaProject

/-- Makes a module of its directory, or of another one: its path, its suffix and its test benches are
free, what it answers is as for every module. -/
abbrev Factory := Path → Module

/-- What decides how modules are made. -/
structure Registry where
  factories : List (String × Factory)
  librarySuffix : Bool

namespace Registry

def empty : Registry :=
  ⟨[], false⟩

/-- Registers the factory for a name, in place of an earlier one. -/
def register (r : Registry) (name : String) (f : Factory) : Registry :=
  { r with factories := (name, f) :: r.factories.filter (·.1 ≠ name) }

def factory? (r : Registry) (name : String) : Option Factory :=
  r.factories.lookup name

/-- A directory that may become a module. -/
structure Candidate where
  name : String
  dir : Path
deriving DecidableEq, Repr

def directoriesIn (d : Disk) (root : Path) : List Path :=
  (d.list root fun _ => true).filter d.isDirectory

def passes (names : Option (List String)) (name : String) : Bool :=
  match names with
  | some list => list.contains name
  | none => true

def candidates (d : Disk) (roots : List Path) (names : Option (List String)) : List Candidate :=
  (roots.flatMap (directoriesIn d)).filterMap fun dir =>
    match dir.fileName? with
    | some name => if passes names name then some ⟨name, dir⟩ else none
    | none => none

def build (r : Registry) (d : Disk) (c : Candidate) : Report Module :=
  match r.factory? c.name with
  | some f => ⟨[.usingFactory c.name], .ok (f c.dir)⟩
  | none =>
    let file := Specialization.fileFor c.dir c.name
    if d.pathExists file then
      ⟨[.loadingSpecialization file], Specialization.load d c.dir file⟩
    else pure (.plain c.dir r.librarySuffix)

def warnings (seen : List String) (c : Candidate) : List Event :=
  if seen.contains c.name then [.duplicateModule c.name c.dir] else []

/-- Makes the modules of candidates one after another. -/
def buildAll (r : Registry) (d : Disk) : List String → List Candidate → Report (List Module)
  | _, [] => pure []
  | seen, c :: cs => do
    let m ← (r.build d c).after (warnings seen c)
    let ms ← buildAll r d (c.name :: seen) cs
    pure (m :: ms)

/-- The modules below the roots. -/
def discover (r : Registry) (d : Disk) (roots : List Path) (names : Option (List String)) :
    Report (List Module) := do
  let ms ← r.buildAll d [] (candidates d roots names)
  Report.say (.discovered ms.length)
  pure ms

end Registry

end FpgaProject
