import FpgaProject.Disk.Walk

/-!
Reading and writing.

Each operation that changes the disk gives the disk that it leaves, also when it fails: making a
directory and those above it may stop half way.
-/

namespace FpgaProject.Disk

def readText (d : Disk) (p : Path) : Except Fault String := do
  let l ← d.locate p
  match d.entryAt? l with
  | some (.file (.text s) _) => .ok s
  | some (.file (.bytes _) _) => .error .notText
  | some .directory => .error .isDirectory
  | none => .error .notFound

/-- Writes a text to a file, which is made if it is not there and keeps its mode if it is. -/
def writeText (d : Disk) (p : Path) (s : String) : Disk × Except Fault Unit :=
  if p.endsInSlash then (d, .error .isDirectory)
  else match d.locateNew p with
    | .error .alreadyThere => (d, .error .isDirectory)
    | .error f => (d, .error f)
    | .ok (l, name) =>
      match d.entryAt? (l ++ [name]) with
      | some .directory => (d, .error .isDirectory)
      | some (.file _ x) => (d.put (l ++ [name]) (.file (.text s) x), .ok ())
      | none => (d.put (l ++ [name]) (.file (.text s) false), .ok ())

def makeDirectory (d : Disk) (p : Path) : Disk × Except Fault Unit :=
  match d.locateNew p with
  | .error f => (d, .error f)
  | .ok (l, name) =>
    match d.entryAt? (l ++ [name]) with
    | some _ => (d, .error .alreadyThere)
    | none => (d.put (l ++ [name]) .directory, .ok ())

/-- A failed attempt to make a directory does not matter if there is one by now. -/
def settle (p : Path) : Disk × Except Fault Unit → Disk × Except Fault Unit
  | (d, .error f) => if d.isDirectory p then (d, .ok ()) else (d, .error f)
  | made => made

/-- Makes a directory and those above it, going up at most `fuel` steps. -/
def makeDirectoriesUpTo : Nat → Disk → Path → Disk × Except Fault Unit
  | 0, d, p => settle p (d.makeDirectory p)
  | fuel + 1, d, p =>
    if p.text.isEmpty then (d, .ok ())
    else match d.makeDirectory p with
      | (d, .error .notFound) =>
        match p.parent? with
        | none => (d, .error .notFound)
        | some above =>
          match makeDirectoriesUpTo fuel d above with
          | (d, .ok ()) => settle p (d.makeDirectory p)
          | failed => failed
      | made => settle p made

def makeDirectories (d : Disk) (p : Path) : Disk × Except Fault Unit :=
  makeDirectoriesUpTo (p.chars.length + 1) d p

end FpgaProject.Disk
