import FpgaProject.Shell.Pattern
import FpgaProject.Shell.Utility.Basic

/-!
Programs that make, copy, move and list files and directories.
-/

namespace FpgaProject.Shell

def Session.refuse (s : Session) (name what : String) (f : Fault) : Session :=
  s.fail (name ++ ": " ++ what ++ ": " ++ f.reason)

/-- Keeps the disk that an operation leaves, and complains if it has failed. -/
def Session.settle (s : Session) (name what : String) : Disk × Except Fault Unit → Session
  | (d, .ok ()) => { s with disk := d }
  | (d, .error f) => { s with disk := d }.refuse name what f

/-- A program that does something with each of the names that it gets. -/
def forEachName (letters : String) (act : String → Options → Session → String → Session) : Utility :=
  withOptions letters "" fun name o s =>
    if o.operands.isEmpty && !o.has 'f' then missing name "operand" s
    else o.operands.foldl (act name o) s

/-! ### Making and taking away -/

def touch : Utility :=
  forEachName "" fun name _ s arg =>
    if (entryOf? s.disk arg).isSome then s
    else s.settle name ("cannot touch " ++ inQuotes arg) (s.disk.writeText (pathOf arg) "")

/-- Makes directories, with those above them if that is asked for. -/
def mkdir : Utility :=
  forEachName "p" fun name o s arg =>
    s.settle name ("cannot create directory " ++ inQuotes arg)
      (if o.has 'p' then s.disk.makeDirectories (pathOf arg) else s.disk.makeDirectory (pathOf arg))

def mkfifo : Utility :=
  forEachName "" fun name _ s arg =>
    s.settle name ("cannot create fifo " ++ inQuotes arg) <|
      match s.disk.locateNew (pathOf arg) with
      | .error f => (s.disk, .error f)
      | .ok (l, last) =>
        if (s.disk.entryAt? (l ++ [last])).isSome then (s.disk, .error .alreadyThere)
        else (s.disk.putPipe (l ++ [last]), .ok ())

/-- Takes files away, and directories if that is asked for. -/
def rm : Utility :=
  forEachName "rRf" fun name o s arg =>
    let what := "cannot remove " ++ inQuotes arg
    match s.disk.locate (pathOf arg) with
    | .error f => if o.has 'f' && f = .notFound then s else s.refuse name what f
    | .ok l =>
      if s.disk.entryAt? l = some .directory && !o.has 'r' && !o.has 'R' then
        s.refuse name what .isDirectory
      else { s with disk := s.disk.drop l }

/-! ### Copying and moving -/

/-- Where something goes that is copied or moved to a name: below it, if that is a directory. -/
def destination (d : Disk) (arg goal : String) : String :=
  if namesDirectory d goal then below goal (lastName arg) else goal

/-- Puts what stands at a location, with all below it, at another one as well. A file that is there
keeps its mode. -/
def copyTree (d : Disk) (source goal : Location) : Disk :=
  d.entries.foldl (fun kept (l, e) =>
    if source.isPrefixOf l then
      let place := goal ++ l.drop source.length
      match e, kept.entryAt? place with
      | .directory, some .directory => kept
      | .file c _, some (.file _ x) => kept.put place (.file c x)
      | e, _ => kept.put place e
    else kept) d

/-- Where an entry would be made, if it can be. -/
def placeOf (d : Disk) (name : String) : Except Fault Location :=
  match d.locate (pathOf name) with
  | .error .notFound => (d.locateNew (pathOf name)).map fun (l, last) => l ++ [last]
  | r => r

def transfer (isMove : Bool) (name : String) (o : Options) (s : Session) (arg goal : String) :
    Session :=
  let goal := destination s.disk arg goal
  let both := inQuotes arg ++ " and " ++ inQuotes goal
  match s.disk.locate (pathOf arg), placeOf s.disk goal with
  | .error f, _ => s.refuse name ("cannot stat " ++ inQuotes arg) f
  | .ok source, .error f =>
    let isDirectory := s.disk.entryAt? source = some .directory
    s.refuse name (if isMove then "cannot move " ++ inQuotes arg ++ " to " ++ inQuotes goal
      else "cannot create " ++ (if isDirectory then "directory " else "regular file ") ++
        inQuotes goal) f
  | .ok source, .ok place =>
    let isDirectory := s.disk.entryAt? source = some .directory
    if source = place then s.fail (name ++ ": " ++ both ++ " are the same file")
    else if !isDirectory && s.disk.entryAt? place = some .directory then
      s.fail (name ++ ": cannot overwrite directory " ++ inQuotes goal ++ " with non-directory")
    else if isMove then
      let d := if isDirectory then s.disk else s.disk.drop place
      { s with disk := (copyTree d source place).drop source }
    else if isDirectory && !o.has 'r' && !o.has 'R' then
      s.fail (name ++ ": -r not specified; omitting directory " ++ inQuotes arg)
    else { s with disk := copyTree s.disk source place }

/-- A program that copies or moves all names but the last one to that one. -/
def transferring (isMove : Bool) (letters : String) : Utility :=
  withOptions letters "" fun name o s =>
    match o.operands with
    | [] => missing name "file operand" s
    | [arg] => missing name ("destination file operand after " ++ inQuotes arg) s
    | [arg, goal] => transfer isMove name o s arg goal
    | all =>
      let goal := all.getLast?.getD ""
      if namesDirectory s.disk goal then
        all.dropLast.foldl (fun s arg => transfer isMove name o s arg goal) s
      else
        s.refuse name ("target " ++ inQuotes goal)
          (if (entryOf? s.disk goal).isSome then .notDirectory else .notFound)

/-! ### Listing -/

def ls : Utility :=
  withOptions "1aA" "" fun name o s =>
    let shown (n : String) : List String :=
      (if o.has 'a' then [".", ".."] else []) ++
        (namesIn s.disk n).filter fun n => o.has 'a' || o.has 'A' || !n.startsWith "."
    let names := if o.operands.isEmpty then ["."]
      else o.operands.mergeSort fun a b => decide (a ≤ b)
    let (there, lost) := names.partition fun n => (entryOf? s.disk n).isSome
    let s := lost.foldl (fun s n =>
      s.fail (name ++ ": cannot access " ++ inQuotes n ++ ": " ++ Fault.notFound.reason) 2) s
    let (directories, files) := there.partition (namesDirectory s.disk)
    let parts := directories.map fun n =>
      (if 1 < names.length then n ++ ":\n" else "") ++ unlines (shown n)
    let parts := if files.isEmpty then parts else unlines files :: parts
    s.print ("\n".intercalate parts)

def namesBelow (d : Disk) : Nat → String → List String
  | 0, name => [name]
  | fuel + 1, name =>
    name :: if namesDirectory d name then
      (namesIn d name).flatMap fun n => namesBelow d fuel (below name n)
    else []

/-- What a search for names asks of each of them, or the word that cannot be read. -/
def findTests (d : Disk) : List String → Except String (List (String → Bool))
  | [] => .ok []
  | "-print" :: rest => findTests d rest
  | "-name" :: p :: rest => do
    .ok ((fun n => (Pattern.ofText p).fits (lastName n).toList) :: (← findTests d rest))
  | "-type" :: "f" :: rest => do .ok ((d.isFile ∘ pathOf) :: (← findTests d rest))
  | "-type" :: "d" :: rest => do .ok (namesDirectory d :: (← findTests d rest))
  | word :: _ => .error word

/-- Prints the names at and below others that pass tests. -/
def find : Utility := fun name args s =>
  let starts := args.takeWhile fun a => !a.startsWith "-"
  match findTests s.disk (args.drop starts.length) with
  | .error word => s.fail (name ++ ": unknown predicate '" ++ word ++ "'")
  | .ok tests =>
    (if starts.isEmpty then ["."] else starts).foldl (fun (s : Session) n =>
      match s.disk.locate (pathOf n) with
      | .error f => s.fail (name ++ ": " ++ inQuotes n ++ ": " ++ f.reason)
      | .ok _ =>
        let all := namesBelow s.disk (s.disk.entries.length + 1) n
        s.print (unlines (all.filter fun n => tests.all (· n)))) s

end FpgaProject.Shell
