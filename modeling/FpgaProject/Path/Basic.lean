import FpgaProject.Text.Split

/-!
Paths as texts.

A path is kept as it was written; nothing is normalised until `Path.absolute` asks for it. What a
path names follows from its pieces between slashes: an empty piece and `.` add nothing, `..` is the
directory above, and any other piece is a name. A `.` at the very start of a relative path counts as
a step of its own when the last step is asked for.
-/

namespace FpgaProject

/-- A path, kept as it was written. -/
structure Path where
  text : String
deriving DecidableEq, Repr

namespace Path

def chars (p : Path) : List Char :=
  p.text.toList

def isAbsolute (p : Path) : Bool :=
  p.chars.head? == some '/'

def endsInSlash (p : Path) : Bool :=
  p.chars.getLast? == some '/'

/-- A path below another one. An absolute path replaces the one before it; otherwise a slash is put
between the two unless the first is empty or ends in one. -/
def join (p q : Path) : Path :=
  if q.isAbsolute || p.text.isEmpty then q
  else if p.endsInSlash then ⟨p.text ++ q.text⟩
  else ⟨p.text ++ "/" ++ q.text⟩

/-- The entry called `name` below a path. -/
def child (p : Path) (name : String) : Path :=
  p.join ⟨name⟩

/-- A relative path is taken to start at `root`; an absolute one is kept. -/
def resolve (root p : Path) : Path :=
  if p.isAbsolute then p else root.join p

/-- The pieces between slashes that are not empty, in order. -/
def pieces (p : Path) : List String :=
  ((Text.splitAt '/' p.chars).filter (· ≠ [])).map String.ofList

/-! ### The last step of a path -/

/-- A path taken apart: whether it starts at the root, whether it is relative and starts with the
piece `.`, and the pieces after that. -/
structure Steps where
  rooted : Bool
  dotted : Bool
  body : List (List Char)
deriving Repr

def steps (p : Path) : Steps :=
  let all := Text.splitAt '/' p.chars
  if p.isAbsolute then ⟨true, false, all.tail⟩
  else if all.head? == some ['.'] then ⟨false, true, all.tail⟩
  else ⟨false, false, all⟩

/-- A piece that adds no step. -/
def isIdle (piece : List Char) : Bool :=
  piece == [] || piece == ['.']

/-- The pieces without the idle ones at the end. -/
def trimmed (body : List (List Char)) : List (List Char) :=
  (body.reverse.dropWhile isIdle).reverse

def Steps.path (s : Steps) : Path :=
  let body := if s.dotted then ['.'] :: s.body else s.body
  ⟨String.ofList ((if s.rooted then ['/'] else []) ++ Text.joinWith '/' body)⟩

/-- The path without its last step; nothing for the root and for the empty path. -/
def parent? (p : Path) : Option Path :=
  let s := p.steps
  let body := trimmed s.body
  if body ≠ [] then some { s with body := trimmed body.dropLast }.path
  else if s.dotted then some ⟨""⟩
  else none

/-- The name that the last step gives; nothing if that step is the root, `.` or `..`. -/
def fileName? (p : Path) : Option String :=
  match (trimmed p.steps.body).getLast? with
  | some name => if name = ['.', '.'] then none else some (String.ofList name)
  | none => none

/-- A name cut at its last dot, unless nothing stands before that dot. -/
def cutAtLastDot (name : List Char) : List Char × Option (List Char) :=
  if name.contains '.' then
    let after := (name.reverse.takeWhile (· ≠ '.')).reverse
    let before := name.take (name.length - after.length - 1)
    if before = [] then (name, none) else (before, some after)
  else (name, none)

def stem? (p : Path) : Option String :=
  p.fileName?.map fun name => String.ofList (cutAtLastDot name.toList).1

def extension? (p : Path) : Option String :=
  p.fileName?.bind fun name => (cutAtLastDot name.toList).2.map String.ofList

/-- Whether the extension is one of those listed, ASCII case aside. -/
def hasExtension (p : Path) (extensions : List String) : Bool :=
  match p.extension? with
  | some e => extensions.any fun known =>
      known.toList.map Char.toLower == e.toList.map Char.toLower
  | none => false

/-- The text of a path in a Tcl script: a backslash would start an escape there, so each becomes a
slash. -/
def tclText (p : Path) : String :=
  String.ofList (p.chars.map fun c => if c = '\\' then '/' else c)

end Path

end FpgaProject
