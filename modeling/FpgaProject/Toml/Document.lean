import FpgaProject.Toml.Number

/-!
Reading a document.

Lines are read one after another. A key with its value goes into the table that is open, a header
closes that table and opens another one. A table that only a longer header has named so far may
still get a header of its own, and takes its place among the keys then; a table with a header, in
braces or from dotted keys gets no second one. Within braces, dotted keys add to any table that
stands there already. `Table.ofText?` gives the document, or nothing if the text is not one.
-/

namespace FpgaProject.Toml

open Text Text.Reader

/-- How deep lists and tables in braces may be nested, and how many keys a dotted key may have. -/
def depthLimit : Nat := 128

/-! ### Keys -/

def isBareKeyChar (c : Char) : Bool :=
  c.isAlphanum || c = '-' || c = '_'

def simpleKey : Reader Key := do
  let (name, span) ← spanned (firstOf [basicText, literalText, run1 isBareKeyChar])
  pure ⟨String.ofList name, some span⟩

/-- Something with blanks around it. -/
def padded {α : Type} (r : Reader α) : Reader α := do
  spaces
  let a ← r
  spaces
  pure a

/-- Keys with dots between them: those that lead to the table, and the last one. -/
def dottedKey : Reader (List Key × Key) := do
  let first ← padded simpleKey
  let others ← repeated (do char '.'; padded simpleKey)
  let all := first :: others
  if depthLimit ≤ all.length then refuse
  else pure (all.dropLast, all.getLast?.getD first)

/-! ### Tables under construction -/

structure Table where
  span : Option Span
  kind : TableKind
  entries : List (Key × Item)
deriving Repr

namespace Table

def item (t : Table) : Item :=
  .table t.span t.kind t.entries

def find? (t : Table) (name : String) : Option Item :=
  (t.entries.find? (·.1.name = name)).map (·.2)

def replace (t : Table) (name : String) (i : Item) : Table :=
  { t with entries := t.entries.map fun (k, j) => if k.name = name then (k, i) else (k, j) }

def append (t : Table) (k : Key) (i : Item) : Table :=
  { t with entries := t.entries ++ [(k, i)] }

def erase (t : Table) (name : String) : Table :=
  { t with entries := t.entries.filter (·.1.name ≠ name) }

/-- What keys that lead to a table belong to: a header, a line, or a line within braces. -/
inductive Way where
  | header
  | line
  | braces
deriving DecidableEq, Repr

/-- How a table comes about that keys on their way do not find. -/
def Way.makes : Way → TableKind
  | .header => .implied
  | .line | .braces => .dotted

/-- Whether keys on their way lead into a table: those of a line not into one with a header of its
own, and neither they nor those of a header into one in braces. -/
def Way.enters : Way → TableKind → Bool
  | .header, kind => kind ≠ .braced
  | .line, kind => kind ≠ .braced ∧ kind ≠ .headed
  | .braces, _ => true

/-- Changes the table that keys lead to, making those on the way that are missing. The last table
of a list of tables stands for the list. Nothing leads into a list in brackets. -/
def alter (way : Way) (t : Table) (path : List Key) (f : Table → Option Table) :
    Option Table :=
  match path with
  | [] => f t
  | k :: ks =>
    match t.find? k.name with
    | none => do
      let made ← alter way ⟨none, way.makes, []⟩ ks f
      some (t.append k made.item)
    | some (.table span kind entries) =>
      if way.enters kind then do
        let changed ← alter way ⟨span, kind, entries⟩ ks f
        some (t.replace k.name changed.item)
      else none
    | some (.list span .headed items) =>
      match items.getLast? with
      | some (.table lastSpan kind entries) => do
        let changed ← alter way ⟨lastSpan, kind, entries⟩ ks f
        some (t.replace k.name (.list span .headed (items.dropLast ++ [changed.item])))
      | _ => none
    | some _ => none

def addDotted (way : Way) (t : Table) (path : List Key) (k : Key) (i : Item) : Option Table :=
  t.alter way path fun inner =>
    if way = .line ∧ path ≠ [] ∧ inner.kind ≠ .dotted then none
    else if (inner.find? k.name).isSome then none
    else some (inner.append k i)

end Table

/-! ### Values -/

def bracketed (value : Reader Item) : Reader Item := do
  let (items, span) ← spanned do
    char '['
    gap
    let first ← optional (do let i ← value; gap; pure i)
    let items ← match first with
      | none => pure []
      | some i => do
        let others ← repeated (do char ','; gap; let j ← value; gap; pure j)
        let _ ← optional (do char ','; gap)
        pure (i :: others)
    char ']'
    pure items
  pure (.list span .bracketed items)

def keyValue (value : Reader Item) : Reader ((List Key × Key) × Item) := do
  let k ← dottedKey
  char '='
  let i ← padded value
  pure (k, i)

def braced (value : Reader Item) : Reader Item := do
  let (pairs, span) ← spanned do
    char '\x7b'
    let first ← optional (keyValue value)
    let others ← match first with
      | none => pure []
      | some _ => repeated (do char ','; keyValue value)
    spaces
    char '\x7d'
    pure (first.toList ++ others)
  let build := pairs.foldlM
    (fun (t : Table) (p : (List Key × Key) × Item) => t.addDotted .braces p.1.1 p.1.2 p.2)
    ⟨some span, .braced, []⟩
  match build with
  | some t => pure t.item
  | none => refuse

def scalar : Reader Item := do
  let (value, span) ← spanned (firstOf [
    (do pure (.string (String.ofList (← quotedText)))),
    (do chars ['t', 'r', 'u', 'e']; pure (.boolean true)),
    (do chars ['f', 'a', 'l', 's', 'e']; pure (.boolean false)),
    number])
  pure (.scalar span value)

/-- A value in which lists and tables are nested at most so deep. -/
def value : Nat → Reader Item
  | 0 => scalar
  | depth + 1 => firstOf [scalar, bracketed (value depth), braced (value depth)]

/-! ### Lines -/

/-- A document while it is being read: what is closed, the table that is open, where it goes, and
whether it goes to a list of tables. -/
structure Draft where
  closed : Table
  current : Table
  path : Option (List Key × Key)
  inList : Bool
deriving Repr

/-- Nothing read yet. The keys before the first header go to the table of the whole document. -/
def Draft.start : Draft :=
  ⟨⟨none, .headed, []⟩, ⟨some ⟨0, 0⟩, .headed, []⟩, none, false⟩

/-- The stretch from the start of one item to the end of another one. -/
def cover (first last : Option Span) : Option Span :=
  match first, last with
  | some a, some b => some ⟨a.start, b.stop⟩
  | _, _ => none

def appendTable (i : Item) (t : Table) : Option Item :=
  match i with
  | .list _ .headed items =>
    let all := items ++ [t.item]
    some (.list (cover (all.head?.bind Item.span) t.span) .headed all)
  | _ => none

/-- Puts the table that is open where it goes. -/
def Draft.close (d : Draft) : Option Table :=
  match d.path with
  | none => some d.current
  | some (path, k) =>
    d.closed.alter .header path fun parent =>
      if d.inList then
        match parent.find? k.name with
        | none => (appendTable (.list none .headed []) d.current).map (parent.append k)
        | some i => (appendTable i d.current).map (parent.replace k.name)
      else match parent.find? k.name with
        | none => some (parent.append k d.current.item)
        | some _ => none

def Table.at? (t : Table) : List Key → Option Table
  | [] => some t
  | k :: ks =>
    match t.find? k.name with
    | some (.table span kind entries) => Table.at? ⟨span, kind, entries⟩ ks
    | some (.list _ .headed items) =>
      match items.getLast? with
      | some (.table span kind entries) => Table.at? ⟨span, kind, entries⟩ ks
      | _ => none
    | _ => none

/-- Opens the table of a header in single brackets. What longer headers said about it so far is
taken over. -/
def Draft.openTable (d : Draft) (path : List Key × Key) (span : Span) : Option Draft := do
  let closed ← (← d.close).alter .header path.1 some
  match (closed.at? path.1).bind (·.find? path.2.name) with
  | none => some ⟨closed, ⟨some span, .headed, []⟩, some path, false⟩
  | some (.table _ .implied entries) =>
    let closed ← closed.alter .header path.1 fun parent => some (parent.erase path.2.name)
    some ⟨closed, ⟨some span, .headed, entries⟩, some path, false⟩
  | some _ => none

/-- Opens a table of a list of tables, for a header in double brackets. -/
def Draft.openListed (d : Draft) (path : List Key × Key) (span : Span) : Option Draft := do
  let closed ← d.close
  let closed ← closed.alter .header path.1 fun parent =>
    match parent.find? path.2.name with
    | none => some (parent.append path.2 (.list none .headed []))
    | some (.list _ .headed _) => some parent
    | some _ => none
  some ⟨closed, ⟨some span, .headed, []⟩, some path, true⟩

/-- Adds a key with its value to the table that is open, whose place grows with it. -/
def Draft.add (d : Draft) (path : List Key × Key) (i : Item) : Option Draft := do
  let grown := { d.current with span := (cover d.current.span i.span).or d.current.span }
  let current ← grown.addDotted .line path.1 path.2 i
  some { d with current := current }

def step (d : Option Draft) : Reader Draft :=
  match d with
  | some d => pure d
  | none => refuse

def header (d : Draft) : Reader Draft := do
  let listed := match ← ahead with
    | '[' :: '[' :: _ => true
    | _ => false
  let opening := if listed then ['[', '['] else ['[']
  let close := if listed then [']', ']'] else [']']
  let (path, span) ← spanned do
    chars opening
    let path ← dottedKey
    chars close
    pure path
  restOfLine
  step (if listed then d.openListed path span else d.openTable path span)

def line (d : Draft) : Reader Draft := do
  spaces
  match ← peek? with
  | none => pure d
  | some '#' | some '\n' | some '\r' => do
    restOfLine
    pure d
  | some '[' => header d
  | some _ => do
    let (path, i) ← keyValue (value (depthLimit - 1))
    restOfLine
    step (d.add path i)

/-- All lines, at most `fuel` of them. -/
def lines : Nat → Draft → Reader Draft
  | 0, d => do
    if ← atEnd then pure d else refuse
  | fuel + 1, d => do
    if ← atEnd then pure d
    else lines fuel (← line d)

/-- The table of a document; nothing if the text is not one. -/
def Table.ofText? (s : String) : Option Table := do
  let mark := Char.ofNat 0xFEFF
  let reader : Reader Draft := do
    let _ ← optional (char mark)
    let rest ← ahead
    lines (rest.length + 1) Draft.start
  let (draft, _) ← reader (Cursor.start s)
  let t ← draft.close
  some t

end FpgaProject.Toml
