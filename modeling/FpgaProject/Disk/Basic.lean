import FpgaProject.Path.Absolute

/-!
The disk: what is where, and the working directory.

A location is the list of names from the root down; an entry is a directory or a file. The root is a
directory and is not listed. Every operation on the disk is described by what it does to the view
`Disk.entryAt?`: putting an entry changes one location (`entryAt?_put`), dropping a location takes
away that one and all below it.
-/

namespace FpgaProject

/-- A place on the disk, by the names from the root down. -/
abbrev Location := List String

/-- What a file holds: text, or bytes that are no UTF-8. -/
inductive Contents where
  | text (s : String)
  | bytes (raw : List UInt8)
deriving DecidableEq, Repr

def Contents.ofBytes (raw : List UInt8) : Contents :=
  match String.fromUTF8? ⟨raw.toArray⟩ with
  | some s => .text s
  | none => .bytes raw

/-- What can stand at a location. -/
inductive Entry where
  | directory
  | file (contents : Contents) (executable : Bool)
deriving DecidableEq, Repr

def Entry.isDirectory : Entry → Bool
  | .directory => true
  | .file .. => false

/-- The disk as a program finds it. No location is listed twice. A file is a pipe if its location is
among those of pipes; what is written to a pipe is not kept on the disk. -/
structure Disk where
  entries : List (Location × Entry)
  distinct : (entries.map Prod.fst).Nodup
  cwd : Location
  pipes : List Location := []

namespace Disk

/-- A disk that holds the working directory and nothing else. -/
def empty (cwd : Location) : Disk where
  entries := (List.range cwd.length).map fun n => (cwd.take (n + 1), .directory)
  distinct := by
    rw [List.map_map, List.Nodup, List.pairwise_map]
    refine List.Pairwise.imp_of_mem ?_ List.pairwise_lt_range
    intro a b ha hb h e
    have := congrArg List.length e
    simp only [Function.comp, List.length_take, List.mem_range] at this ha hb
    omega
  cwd := cwd

def entryAt? (d : Disk) (l : Location) : Option Entry :=
  if l = [] then some .directory else d.entries.lookup l

/-- Puts an entry at a location, in place of what stood there. -/
def put (d : Disk) (l : Location) (e : Entry) : Disk where
  entries := (l, e) :: d.entries.filter (fun x => x.1 ≠ l)
  distinct := by
    rw [List.map_cons, List.nodup_cons]
    constructor
    · simp
    · exact d.distinct.sublist (List.filter_sublist.map _)
  cwd := d.cwd
  pipes := d.pipes

def drop (d : Disk) (l : Location) : Disk where
  entries := d.entries.filter (fun x => !l.isPrefixOf x.1)
  distinct := d.distinct.sublist (List.filter_sublist.map _)
  cwd := d.cwd
  pipes := d.pipes.filter (fun m => !l.isPrefixOf m)

def putPipe (d : Disk) (l : Location) : Disk :=
  let made := d.put l (.file (.text "") false)
  { made with pipes := l :: d.pipes.filter (· ≠ l) }

def isPipeAt (d : Disk) (l : Location) : Bool :=
  d.pipes.contains l

def within (d : Disk) (cwd : Location) : Disk :=
  { d with cwd := cwd }

def pathOf (l : Location) : Path :=
  ⟨"/" ++ "/".intercalate l⟩

def cwdPath (d : Disk) : Path :=
  pathOf d.cwd

/-- The names of what stands directly in a directory, in the order of their bytes. -/
def names (d : Disk) (l : Location) : List String :=
  let below := d.entries.filterMap fun (m, _) =>
    if m ≠ [] ∧ m.dropLast = l then m.getLast? else none
  below.mergeSort (fun a b => decide (a ≤ b))

/-! ### The view -/

@[simp] theorem entryAt?_root (d : Disk) : d.entryAt? [] = some .directory := by
  simp [entryAt?]

/-- Looking up among the pairs whose first part passes a test. -/
theorem lookup_filter {α β : Type} [BEq α] [LawfulBEq α] (keep : α → Bool) (m : α)
    (es : List (α × β)) :
    (es.filter (fun x => keep x.1)).lookup m = if keep m then es.lookup m else none := by
  induction es with
  | nil => simp
  | cons x es ih =>
    obtain ⟨k, e⟩ := x
    rw [List.lookup_cons]
    by_cases hm : m = k
    · subst hm
      by_cases hk : keep m = true
      · simp [hk]
      · simp [hk, ih]
    · have hne : (m == k) = false := by simp [hm]
      by_cases hk : keep k = true
      · simp [hk, List.lookup_cons, hne, ih]
      · simp [hk, hne, ih]

/-- Putting an entry changes its location alone. -/
theorem entryAt?_put (d : Disk) {l : Location} (hl : l ≠ []) (e : Entry) (m : Location) :
    (d.put l e).entryAt? m = if m = l then some e else d.entryAt? m := by
  by_cases hm : m = l
  · subst hm
    simp [entryAt?, put, hl]
  · simp only [entryAt?, put, hm, if_false]
    split
    · rfl
    · have : (m == l) = false := by simp [hm]
      rw [List.lookup_cons, this]
      simpa [hm] using lookup_filter (fun k => decide (k ≠ l)) m d.entries

@[simp] theorem entryAt?_within (d : Disk) (cwd m : Location) :
    (d.within cwd).entryAt? m = d.entryAt? m := rfl

@[simp] theorem cwd_put (d : Disk) (l : Location) (e : Entry) : (d.put l e).cwd = d.cwd := rfl

end Disk

end FpgaProject
