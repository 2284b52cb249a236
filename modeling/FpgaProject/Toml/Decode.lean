import FpgaProject.Toml.Document
import FpgaProject.Toml.Misfit

/-!
Reading values out of a document.

Each function asks an item to be something and gives the misfit if it is not. The first misfit in
the order of the document is the one that is given: a record asks its keys one after another as they
stand there, and only then what is missing. A misfit without a place gets that of the innermost item
around it that has one; an item of a list does not count for this, its list does.
-/

namespace FpgaProject.Toml

def Item.wrongType (i : Item) (expected : String) : Misfit :=
  ⟨.wrongType i.found expected, i.span⟩

/-- A result whose misfit, if it has no place, gets this one. -/
def within {α : Type} (span : Option Span) : Except Misfit α → Except Misfit α
  | .ok a => .ok a
  | .error m => .error (m.placedAt span)

def Item.asString (expected : String) : Item → Except Misfit String
  | .scalar _ (.string s) => .ok s
  | i => .error (i.wrongType expected)

def Item.asBoolean : Item → Except Misfit Bool
  | .scalar _ (.boolean b) => .ok b
  | i => .error (i.wrongType "a boolean")

def Item.asList {α : Type} (read : Item → Except Misfit α) : Item → Except Misfit (List α)
  | .list span _ items => within span (items.mapM read)
  | i => .error (i.wrongType "a sequence")

/-- The key under which a date or a time stands, seen as a table. -/
def momentKey : String := "$__toml_private_datetime"

def Item.entries? : Item → Option (List (Key × Item))
  | .table _ _ entries => some entries
  | .scalar _ (.moment s) => some [(⟨momentKey, none⟩, .ofString s)]
  | _ => none

/-- A table with any keys, each of whose items is read the same way. -/
def Item.asMap {α : Type} (read : Item → Except Misfit α) (i : Item) :
    Except Misfit (List (String × α)) :=
  match i.entries? with
  | some entries => within i.span (entries.mapM fun (k, j) =>
      within j.span ((read j).map fun a => (k.name, a)))
  | none => .error (i.wrongType "a map")

/-! ### Records -/

/-- How a record is read. What has been read so far is kept in a value of type `σ`. A record may
also be written as a list of its fields in their order; a list that is too short may leave out
fields that have a default. -/
structure RecordReader (σ α : Type) where
  name : String
  fields : List String
  defaulted : List String
  start : σ
  read : σ → String → Item → Except Misfit σ
  finish : σ → Except Misfit α

namespace RecordReader

variable {σ α : Type}

def readEntry (r : RecordReader σ α) (s : σ) (entry : Key × Item) : Except Misfit σ :=
  if entry.1.name ∈ r.fields then within entry.2.span (r.read s entry.1.name entry.2)
  else .error ⟨.unknownField entry.1.name r.fields, entry.1.span⟩

def expectedList (r : RecordReader σ α) : String :=
  let n := r.fields.length
  "struct " ++ r.name ++ " with " ++ toString n ++ (if n = 1 then " element" else " elements")

/-- Reads fields from the items of a list, as long as there are some. -/
def readPositions (r : RecordReader σ α) :
    σ → Nat → List String → List Item → Except Misfit σ
  | s, _, [], _ => .ok s
  | s, n, f :: fs, [] =>
    if f ∈ r.defaulted then readPositions r s (n + 1) fs []
    else .error ⟨.tooShort n r.expectedList, none⟩
  | s, n, f :: fs, i :: is => do
    let s ← r.read s f i
    readPositions r s (n + 1) fs is

def decode (r : RecordReader σ α) (i : Item) : Except Misfit α :=
  match i with
  | .list span _ items => within span do
    r.finish (← r.readPositions r.start 0 r.fields items)
  | i =>
    match i.entries? with
    | some entries => within i.span do
      r.finish (← entries.foldlM r.readEntry r.start)
    | none => .error (i.wrongType ("struct " ++ r.name))

end RecordReader

def required {α : Type} (name : String) : Option α → Except Misfit α
  | some a => .ok a
  | none => .error ⟨.missingField name, none⟩

def decodeText {α : Type} (read : Item → Except Misfit α) (source : String) :
    Except Failure α :=
  match Table.ofText? source with
  | none => .error .notToml
  | some t =>
    match read t.item with
    | .ok a => .ok a
    | .error m => .error (.misfit source m)

end FpgaProject.Toml
