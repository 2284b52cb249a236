import FpgaProject.Disk.Walk

/-!
The entries of a directory, by path.

`Disk.list` gives the paths of what stands directly in a directory, in the order of their names, as
a walk of the pattern `directory/*` meets them. The walk takes the text of the path piece by piece,
so the paths that come out are respelled: pieces follow one another with a single slash, a leading
`./` is lost, and an empty piece that comes first leads nowhere. A piece with one of `? * [ ]` in it
is looked for among the names of the directory instead of being asked for.
-/

namespace FpgaProject.Disk

/-- Whether a piece of a path is looked for among the names of a directory. -/
def isSearched (piece : List Char) : Bool :=
  piece.any fun c => c = '?' || c = '*' || c = '[' || c = ']'

/-- The path one piece further: from `.` the piece stands alone. -/
def stepTo (at_ : Path) (piece : String) : Path :=
  if at_.text = "." then ⟨piece⟩ else at_.child piece

/-- The path one piece further, if the walk can go there. -/
def advance? (d : Disk) (at_ : Path) (piece : List Char) : Option Path :=
  let name := String.ofList piece
  let next := stepTo at_ name
  if isSearched piece then
    match d.locate at_ with
    | .error _ => none
    | .ok l =>
      if d.entryAt? l = some .directory ∧ name ∈ d.names l then some next else none
  else if name = "." ∨ name = ".." then
    if d.isDirectory at_ then some next else none
  else if d.pathExists next then some next
  else none

/-- The path at the end of a walk along pieces. -/
def follow? (d : Disk) (at_ : Path) : List (List Char) → Option Path
  | [] => some at_
  | piece :: pieces => (d.advance? at_ piece).bind fun next => follow? d next pieces

/-- The paths of what stands directly in the directory `p` and whose name is `wanted`, in the order
of the names. Nothing, if there is no such directory. -/
def list (d : Disk) (p : Path) (wanted : String → Bool) : List Path :=
  let all := Text.splitAt '/' p.chars
  let (start, pieces) := if p.isAbsolute then (Path.mk "/", all.tail)
    else if p.text.isEmpty then (Path.mk "/", [])
    else (Path.mk ".", all)
  match d.follow? start pieces with
  | none => []
  | some at_ =>
    match d.locate at_ with
    | .error _ => []
    | .ok l =>
      if d.entryAt? l = some .directory then
        ((d.names l).filter wanted).map (stepTo at_)
      else []

end FpgaProject.Disk
