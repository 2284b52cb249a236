import FpgaProject.Disk.Basic

/-!
What changed between two states of a disk.
-/

namespace FpgaProject.Disk

/-- One difference between two states of a disk. -/
inductive Change where
  | madeDirectory (path : String)
  | wrote (path : String) (contents : Contents)
  | removed (path : String)
deriving DecidableEq, Repr

/-- The path of a location below another one; directories end in a slash. -/
def pathBelow (top : Location) (l : Location) (e : Entry) : String :=
  "/".intercalate (l.drop top.length) ++ if e.isDirectory then "/" else ""

/-- The directories and files with lasting contents strictly below a location, with their paths from
there, in the order of the paths. -/
def entriesBelow (d : Disk) (top : Location) : List (String × Location × Entry) :=
  let below := d.entries.filterMap fun (l, e) =>
    if top.isPrefixOf l && l ≠ top && !d.isPipeAt l then some (pathBelow top l e, l, e) else none
  below.mergeSort (fun a b => decide (a.1 ≤ b.1))

/-- What was made or written below `top`, in the order of the paths, and then what was removed. -/
def changes (before after : Disk) (top : Location) : List Change :=
  let made := (after.entriesBelow top).filterMap fun (path, l, e) =>
    match e, before.entryAt? l with
    | .directory, some .directory => none
    | .directory, _ => some (.madeDirectory path)
    | .file c _, some (.file c' _) => if c = c' then none else some (.wrote path c)
    | .file c _, _ => some (.wrote path c)
  let gone := (before.entriesBelow top).filterMap fun (path, l, e) =>
    match after.entryAt? l with
    | some e' => if e'.isDirectory = e.isDirectory then none else some (.removed path)
    | none => some (.removed path)
  made ++ gone

end FpgaProject.Disk
