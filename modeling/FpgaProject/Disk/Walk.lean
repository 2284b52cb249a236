import FpgaProject.Disk.Basic
import FpgaProject.Disk.Fault

/-!
Where a path leads.

A path is walked name by name from the root or the working directory. Each step needs a directory to
start from; `.` stays, `..` goes up, and a name must be there. A slash at the end asks for a
directory. Looking a path up never changes the disk.
-/

namespace FpgaProject.Disk

def nameLimit : Nat := 255

/-- A path must have fewer bytes than this. -/
def pathLimit : Nat := 4096

def walk (d : Disk) (l : Location) : List String → Except Fault Location
  | [] => .ok l
  | piece :: pieces =>
    match d.entryAt? l with
    | none => .error .notFound
    | some (.file ..) => .error .notDirectory
    | some .directory =>
      if piece = "." then walk d l pieces
      else if piece = ".." then walk d l.dropLast pieces
      else if nameLimit < piece.utf8ByteSize then .error .nameTooLong
      else match d.entryAt? (l ++ [piece]) with
        | none => .error .notFound
        | some _ => walk d (l ++ [piece]) pieces

def origin (d : Disk) (p : Path) : Location :=
  if p.isAbsolute then [] else d.cwd

def textFault? (p : Path) : Option Fault :=
  if p.chars.contains '\x00' then some .nulInName
  else if p.text.isEmpty then some .notFound
  else if pathLimit ≤ p.text.utf8ByteSize then some .nameTooLong
  else none

def locate (d : Disk) (p : Path) : Except Fault Location :=
  match textFault? p with
  | some f => .error f
  | none => d.walk (d.origin p) (p.pieces ++ if p.endsInSlash then ["."] else [])

/-- The place where a path would put a new entry: the directory and the name. -/
def locateNew (d : Disk) (p : Path) : Except Fault (Location × String) :=
  match textFault? p with
  | some f => .error f
  | none =>
    match p.pieces.getLast? with
    | none => .error .alreadyThere
    | some name => do
      let l ← d.walk (d.origin p) (p.pieces.dropLast)
      match d.entryAt? l with
      | some .directory =>
        if name = "." ∨ name = ".." then .error .alreadyThere
        else if nameLimit < name.utf8ByteSize then .error .nameTooLong
        else .ok (l, name)
      | some (.file ..) => .error .notDirectory
      | none => .error .notFound

def find? (d : Disk) (p : Path) : Option Entry :=
  match d.locate p with
  | .ok l => d.entryAt? l
  | .error _ => none

def pathExists (d : Disk) (p : Path) : Bool :=
  (d.find? p).isSome

def isDirectory (d : Disk) (p : Path) : Bool :=
  d.find? p == some .directory

/-- Whether a path names a file. A pipe is none. -/
def isFile (d : Disk) (p : Path) : Bool :=
  match d.locate p with
  | .ok l => (d.entryAt? l).any (!·.isDirectory) && !d.isPipeAt l
  | .error _ => false

end FpgaProject.Disk
