import FpgaProject.Disk.Access
import FpgaProject.Shell.Octets

/-!
What the programs of scripts have in common.

A program gets its name and its words, the disk, whose working directory is that of the script, and
what there is to be read. It leaves the disk, what it has not read, what it has printed and a
status, which is zero if all went well. Options are taken wherever they stand among the words.
-/

namespace FpgaProject.Shell

/-- What a program works on: the disk, what is left to be read, what it has printed, and its
status. -/
structure Session where
  disk : Disk
  input : String := ""
  output : String := ""
  diagnostics : String := ""
  status : Nat := 0

/-- A program: what it does under a name with its words. -/
abbrev Utility := String → List String → Session → Session

namespace Session

def print (s : Session) (text : String) : Session :=
  { s with output := s.output ++ text }

def printLine (s : Session) (text : String) : Session :=
  s.print (text ++ "\n")

def fail (s : Session) (text : String) (status : Nat := 1) : Session :=
  { s with diagnostics := s.diagnostics ++ text ++ "\n", status := status }

/-- The text of a file by its name in the script; a hyphen names what there is to be read. -/
def read (s : Session) (name : String) : Session × Except Fault String :=
  if name = "-" then ({ s with input := "" }, .ok s.input)
  else
    (s, do
      let l ← s.disk.locate ⟨decoded name⟩
      match s.disk.entryAt? l with
      | some (.file c _) => .ok (contentOctets c)
      | some .directory => .error .isDirectory
      | none => .error .notFound)

/-- What is said of a file that cannot be read, if nothing else is. -/
def plainly (file reason : String) : String :=
  file ++ ": " ++ reason

/-- The texts of files one after another, or of what there is to be read if no file is named. -/
def readAll (name : String) (complain : String → String → String) (names : List String)
    (s : Session) : Session × List String :=
  (if names.isEmpty then ["-"] else names).foldl (fun (s, texts) n =>
    match s.read n with
    | (s, .ok text) => (s, texts ++ [text])
    | (s, .error f) => (s.fail (name ++ ": " ++ complain n f.reason), texts)) (s, [])

end Session

/-! ### Names -/

def pathOf (name : String) : Path :=
  ⟨decoded name⟩

def entryOf? (d : Disk) (name : String) : Option Entry :=
  d.find? (pathOf name)

def namesDirectory (d : Disk) (name : String) : Bool :=
  d.isDirectory (pathOf name)

def isPipe (d : Disk) (name : String) : Bool :=
  (d.locate (pathOf name)).toOption.any d.isPipeAt

def lastName (name : String) : String :=
  match name.toList.reverse.dropWhile (· = '/') with
  | [] => if name.isEmpty then "" else "/"
  | s => String.ofList (s.takeWhile (· ≠ '/')).reverse

def aboveName (name : String) : String :=
  match name.toList.reverse.dropWhile (· = '/') with
  | [] => if name.isEmpty then "." else "/"
  | s =>
    match s.dropWhile (· ≠ '/') with
    | [] => "."
    | above =>
      match above.dropWhile (· = '/') with
      | [] => "/"
      | above => String.ofList above.reverse

def below (directory name : String) : String :=
  if directory.endsWith "/" then directory ++ name else directory ++ "/" ++ name

/-- The names in a directory, in the order of their bytes. -/
def namesIn (d : Disk) (name : String) : List String :=
  match d.locate (pathOf name) with
  | .ok l => (d.names l).map octets
  | .error _ => []

def inQuotes (name : String) : String :=
  "'" ++ name ++ "'"

/-! ### Lines -/

/-- The lines of a text; the end of the last one may be missing. -/
def linesOf (s : String) : List String :=
  let all := (Text.splitAt '\n' s.toList).map String.ofList
  if all.getLast? = some "" then all.dropLast else all

def unlines (lines : List String) : String :=
  String.join (lines.map (· ++ "\n"))

/-- A text with blanks in front, up to a width. -/
def padLeft (width : Nat) (s : String) : String :=
  String.ofList (List.replicate (width - s.length) ' ') ++ s

def wholeNumber? (s : String) : Option Int :=
  match s.toList with
  | '-' :: digits => (String.ofList digits).toNat?.map fun n => -(n : Int)
  | _ => s.toNat?.map fun n => (n : Int)

/-! ### Options -/

/-- What has been read of the words of a program. -/
structure Options where
  given : List (Char × String) := []
  operands : List String := []

namespace Options

def has (o : Options) (c : Char) : Bool :=
  o.given.any (·.1 = c)

/-- The value of an option; the last one counts. -/
def value? (o : Options) (c : Char) : Option String :=
  (o.given.reverse.find? (·.1 = c)).map Prod.snd

def values (o : Options) (c : Char) : List String :=
  (o.given.filter (·.1 = c)).map Prod.snd

/-- The letters of one word, where `letters` stand for themselves and `valued` have a value behind
them; and whether the last of them has its value in the next word. -/
def ofWord (letters valued : String) :
    List Char → Except String (List (Char × String) × Option Char)
  | [] => .ok ([], none)
  | c :: rest =>
    if valued.toList.contains c then
      if rest = [] then .ok ([], some c) else .ok ([(c, String.ofList rest)], none)
    else if letters.toList.contains c then do
      let (given, waiting) ← ofWord letters valued rest
      .ok ((c, "") :: given, waiting)
    else .error ("invalid option -- '" ++ String.singleton c ++ "'")

/-- Reads words; `waiting` is a letter whose value is the next one. -/
def readFrom (letters valued : String) (o : Options) (waiting : Option Char) :
    List String → Except String Options
  | [] =>
    match waiting with
    | some c => .error ("option requires an argument -- '" ++ String.singleton c ++ "'")
    | none => .ok o
  | arg :: args =>
    match waiting, arg.toList with
    | some c, _ => readFrom letters valued { o with given := o.given ++ [(c, arg)] } none args
    | none, ['-', '-'] => .ok { o with operands := o.operands ++ args }
    | none, '-' :: c :: more =>
      match ofWord letters valued (c :: more) with
      | .ok (given, waiting) =>
        readFrom letters valued { o with given := o.given ++ given } waiting args
      | .error reason => .error reason
    | none, _ => readFrom letters valued { o with operands := o.operands ++ [arg] } none args

end Options

/-- A program that knows some options; others are complained about. -/
def withOptions (letters valued : String) (act : String → Options → Session → Session)
    (status : Nat := 1) : Utility := fun name args s =>
  match Options.readFrom letters valued {} none args with
  | .ok o => act name o s
  | .error reason =>
    (s.fail (name ++ ": " ++ reason)).fail
      ("Try '" ++ name ++ " --help' for more information.") status

def missing (name what : String) (s : Session) : Session :=
  (s.fail (name ++ ": missing " ++ what)).fail
    ("Try '" ++ name ++ " --help' for more information.")

end FpgaProject.Shell
