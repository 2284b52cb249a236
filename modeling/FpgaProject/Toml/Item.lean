import FpgaProject.Decimal.Shortest

/-!
The contents of a TOML document.

A document is a table: keys in the order in which they were written, each with an item. Keys and
items remember where they stand in the source, so that a complaint can point there; tables that no
single stretch of text makes have no such place.
-/

namespace FpgaProject.Toml

/-- A stretch of the source, from one byte up to another. -/
structure Span where
  start : Nat
  stop : Nat
deriving DecidableEq, Repr

structure Key where
  name : String
  span : Option Span
deriving DecidableEq, Repr

/-- The values that hold no others. A date or a time is kept as text. -/
inductive Scalar where
  | string (s : String)
  | integer (n : Int)
  | real (x : Binary64)
  | boolean (b : Bool)
  | moment (s : String)
deriving DecidableEq, Repr

/-- How a table came about: in braces, under a header of its own, because a longer header names it,
or because a dotted key does. -/
inductive TableKind where
  | braced
  | headed
  | implied
  | dotted
deriving DecidableEq, Repr

/-- How a list came about: in brackets, or from headers in double brackets. -/
inductive ListKind where
  | bracketed
  | headed
deriving DecidableEq, Repr

inductive Item where
  | scalar (span : Option Span) (value : Scalar)
  | list (span : Option Span) (kind : ListKind) (items : List Item)
  | table (span : Option Span) (kind : TableKind) (entries : List (Key × Item))
deriving Repr

def Item.span : Item → Option Span
  | .scalar span _ => span
  | .list span _ _ => span
  | .table span _ _ => span

/-! ### Items without a place -/

def Item.ofScalar (value : Scalar) : Item :=
  .scalar none value

def Item.ofString (s : String) : Item :=
  .scalar none (.string s)

def Item.ofList (items : List Item) : Item :=
  .list none .bracketed items

def Item.ofEntries (entries : List (String × Item)) : Item :=
  .table none .headed (entries.map fun (name, item) => (⟨name, none⟩, item))

end FpgaProject.Toml
