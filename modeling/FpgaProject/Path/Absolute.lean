import FpgaProject.Path.Basic

/-!
Absolute forms of paths.

`Path.absolute` starts a relative path at the working directory, drops `.` and repeated slashes, and
keeps `..`, a slash at the end and exactly two slashes at the start. It looks at no file. Main
statement: it fails on the empty path and on no other (`absolute?_eq_none_iff`).
-/

namespace FpgaProject.Path

def keptPieces (p : Path) : List String :=
  p.pieces.filter (· ≠ ".")

def start (p cwd : Path) : Path :=
  if p.isAbsolute then
    match p.chars with
    | '/' :: '/' :: '/' :: _ => ⟨"/"⟩
    | '/' :: '/' :: _ => ⟨"//"⟩
    | _ => ⟨"/"⟩
  else cwd

/-- The absolute form of a path; nothing for the empty path. -/
def absolute? (p cwd : Path) : Option Path :=
  if p.text.isEmpty then none
  else
    let base := p.keptPieces.foldl child (p.start cwd)
    some (if p.endsInSlash then base.child "" else base)

/-- Every path but the empty one has an absolute form. -/
theorem absolute?_eq_none_iff {p cwd : Path} : p.absolute? cwd = none ↔ p.text = "" := by
  unfold absolute?
  split <;> simp_all

end FpgaProject.Path
