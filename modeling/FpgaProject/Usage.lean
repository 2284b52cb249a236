import FpgaProject.Text.Quoted

/-!
The stages of a build, and those in which a constraint is used.
-/

namespace FpgaProject

inductive Stage where
  | synthesis
  | implementation
deriving DecidableEq, Repr

/-- The stages in which a constraint is used. -/
inductive Usage where
  | all
  | synthesis
  | implementation
deriving DecidableEq, Repr

namespace Usage

def word : Usage → String
  | .all => "all"
  | .synthesis => "synth"
  | .implementation => "impl"

def ofWord? : String → Option Usage
  | "all" => some .all
  | "synth" => some .synthesis
  | "impl" => some .implementation
  | _ => none

/-- What is said about a text that is no such word. -/
def complaint (s : String) : String :=
  "unknown stage " ++ Text.quoted s ++
    " for constraint usage: expected \"all\", \"synth\", or \"impl\""

def includes : Usage → Stage → Bool
  | .all, _ => true
  | .synthesis, s => s == .synthesis
  | .implementation, s => s == .implementation

end Usage

end FpgaProject
