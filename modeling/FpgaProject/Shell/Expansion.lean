import FpgaProject.Shell.Pattern
import FpgaProject.Shell.State
import FpgaProject.Shell.Utility.Basic

/-!
What words stand for.

A word is turned into chunks: letters that stay together, marks where quotes are, values whose
separators split them, and the arguments of a script, which stay apart. From the chunks come the
fields, each of which is a word of the command that is run; a field that is a pattern stands for the
names that fit it. Where no fields are wanted, the letters of all chunks make one text.
-/

namespace FpgaProject.Shell

/-- A part of what a word stands for. In a chunk whose parts stay apart, and in one that is split, a
zero character stands between arguments. -/
inductive Chunk where
  | kept (s : List Letter)
  | mark
  | split (s : List Letter)
  | apart (s : List Letter)
deriving DecidableEq, Repr

def Chunk.letters : Chunk → List Letter
  | .kept s | .split s | .apart s => s
  | .mark => []

/-- How a word is expanded: to fields or to one text, and whether its own text is split. -/
structure Manner where
  fields : Bool := false
  splitsText : Bool := false

def lettersOf (isHidden : Bool) (s : String) : List Letter :=
  s.toList.map fun c => ⟨c, isHidden⟩

def textOf (s : List Letter) : String :=
  String.ofList (s.map (·.char))

/-! ### Fields -/

/-- Fields that are being made: those that are finished, the last one first, the letters of the one
that may go on, the last one first, whether there is something in it, and whether the chunk before
kept its parts apart. -/
structure Fields where
  finished : List (List Letter) := []
  current : List Letter := []
  something : Bool := false
  apart : Bool := false

namespace Fields

def finish (f : Fields) : Fields :=
  { f with finished := f.current.reverse :: f.finished, current := [], something := false }

def add (f : Fields) (l : Letter) : Fields :=
  { f with current := l :: f.current, something := true }

/-- Goes on with the letters of a value that is split. `passing` is set behind a blank that has
ended a field. -/
def addSplit (separators : List Char) : Bool → List Letter → Fields → Fields
  | _, [], f => f
  | passing, l :: ls, f =>
    let separates := l.char = '\x00' || separators.contains l.char
    let blank := separates && ['\x00', ' ', '\t', '\n'].contains l.char
    if passing then
      if blank then addSplit separators true ls f
      else addSplit separators false ls (if separates then f else f.add l)
    else if separates then
      if blank && !f.something then addSplit separators false ls f
      else addSplit separators blank ls f.finish
    else addSplit separators false ls (f.add l)

/-- Goes on with letters, of which zero characters are borders. -/
def addApart : List Letter → Fields → Fields
  | [], f => f
  | l :: ls, f => addApart ls (if l.char = '\x00' then f.finish else f.add l)

def addChunk (separators : List Char) (f : Fields) : Chunk → Fields
  | .kept s => s.foldl add f
  | .mark => { f with something := true }
  | .split s => { addSplit separators false s f with apart := false }
  | .apart s => { addApart s f with apart := true }

/-- The fields of chunks. The last one counts if there is something in it or if the last value kept
its parts apart. -/
def ofChunks (separators : List Char) (chunks : List Chunk) : List (List Letter) :=
  let f : Fields := chunks.foldl (addChunk separators) {}
  let f := if f.something || f.apart then f.finish else f
  f.finished.reverse

end Fields

/-! ### Names that fit -/

def patternParts (s : List Letter) : List (List Letter) :=
  s.foldr (fun l parts =>
    if l.char = '/' then [] :: parts
    else match parts with
      | p :: parts => (l :: p) :: parts
      | [] => [[l]]) [[]]

/-- The names that fit the parts of a pattern behind a path that has been found. -/
def namesFitting (d : Disk) : String → List (List Letter) → List String
  | found, [] => [found]
  | found, part :: parts =>
    let isLast := parts.isEmpty
    let go (name : String) : List String :=
      namesFitting d (found ++ name ++ if isLast then "" else "/") parts
    if !hasPattern part then
      let name := textOf part
      if isLast && (entryOf? d (found ++ name)).isNone then [] else go name
    else
      let p := Pattern.ofLetters part
      let isDotted := (part.head?.map (·.char)) = some '.'
      (namesIn d (if found.isEmpty then "." else found)).flatMap fun name =>
        if (isDotted || !name.startsWith ".") && p.fits name.toList &&
            (isLast || namesDirectory d (found ++ name)) then go name
        else []

/-- The words that a field stands for: itself, or the names that fit it, in the order of their
bytes. -/
def namesOf (d : Disk) (s : List Letter) : List String :=
  if hasPattern s then
    match namesFitting d "" (patternParts s) with
    | [] => [textOf s]
    | names => names.mergeSort fun a b => decide (a ≤ b)
  else [textOf s]

/-! ### Parameters -/

namespace State

/-- What stands between the arguments where they make one text. -/
def joint (s : State) : String :=
  match s.value? "IFS" with
  | some v => String.ofList (v.toList.take 1)
  | none => " "

/-- The value of a parameter. Where values are split, a zero character stands between arguments. -/
def parameter? (s : State) (p : Parameter) (fields inQuotes : Bool) : Option String :=
  match p with
  | .arguments => some ((if fields then "\x00" else s.joint).intercalate s.arguments)
  | .line => some ((if fields && !inQuotes then "\x00" else s.joint).intercalate s.arguments)
  | .count => some (toString s.arguments.length)
  | .status => some (toString s.status)
  | .process => some (toString s.process)
  | .background => s.lastStarted.map toString
  | .argument 0 => some s.program
  | .argument (n + 1) => s.arguments[n]?
  | .value name => s.value? name

end State

/-! ### Expansion -/

def valueChunks (p : Parameter) (m : Manner) (inQuotes : Bool) (s : State) (value : List Letter) :
    List Chunk :=
  if !m.fields then [.kept value]
  else if inQuotes then
    if p = .arguments then if s.arguments.isEmpty then [] else [.apart value] else [.kept value]
  else [.split value]

def workOut (text : String) : Act Int := do
  let refuse (reason : String) : Act Int :=
    Act.fail ("arithmetic expression: " ++ reason ++ ": \"" ++ text ++ "\"")
  let value (name : String) : Act Int := do
    let v := ((← get).value? name).getD ""
    match numberOf? true v with
    | some n => pure n
    | none => Act.fail ("Illegal number: " ++ v)
  match Formula.ofText text with
  | .ok f =>
    f.value (m := Act)
      ⟨value, fun name n => Act.assign name (toString n), refuse "division by zero"⟩
  | .error reason => refuse reason

/-- A text without the ends of lines behind it. -/
def outputValue (s : String) : String :=
  String.ofList (s.toList.reverse.dropWhile (· = '\n')).reverse

mutual

/-- The chunks of a word; `output` tells what a command prints. -/
def chunksOf (output : Command → Act String) (m : Manner) : List Piece → Act (List Chunk)
  | [] => pure []
  | p :: ps => do
    let here ← pieceChunks output m p
    pure (here ++ (← chunksOf output m ps))

def pieceChunks (output : Command → Act String) (m : Manner) : Piece → Act (List Chunk)
  | .plain text =>
    let letters := text.map fun c => Letter.mk c false
    pure [if m.splitsText then .split letters else .kept letters]
  | .quoted text => pure [.mark, .kept (text.map fun c => ⟨c, true⟩)]
  | .parameter p use inQuotes => useChunks output m p inQuotes use
  | .output c inQuotes => do
    let letters := lettersOf inQuotes (outputValue (← output c))
    pure [if m.fields && !inQuotes then .split letters else .kept letters]
  | .number e inQuotes => do
    let chunks ← chunksOf output {} e
    let letters := lettersOf inQuotes (toString (← workOut (textOf (chunks.flatMap Chunk.letters))))
    pure [if m.fields && !inQuotes then .split letters else .kept letters]

def useChunks (output : Command → Act String) (m : Manner) (p : Parameter) (inQuotes : Bool) :
    Use → Act (List Chunk)
  | .itself => do found (← demanded)
  | .length => do
    let value ← demanded
    pure (valueChunks .count m inQuotes (← get) (lettersOf inQuotes (toString value.length)))
  | .default nullToo w => do
    match set? (← get) nullToo with
    | some value => found value
    | none => chunksOf output { m with splitsText := m.fields && !inQuotes } w
  | .replace nullToo w => do
    match set? (← get) nullToo with
    | some _ => chunksOf output { m with splitsText := m.fields && !inQuotes } w
    | none => pure []
  | .assign nullToo w => do
    match set? (← get) nullToo, p with
    | some value, _ => found value
    | none, .value name => do
      let value := textOf ((← chunksOf output {} w).flatMap Chunk.letters)
      Act.assign name value
      found value
    | none, p => Act.fail (p.text ++ ": bad variable name")
  | .demand nullToo w => do
    match set? (← get) nullToo with
    | some value => found value
    | none => do
      let chunks ← chunksOf output {} w
      let why := if w.isEmpty then "parameter not set" ++ (if nullToo then " or null" else "")
        else textOf (chunks.flatMap Chunk.letters)
      Act.fail (p.text ++ ": " ++ why)
  | .trim atEnd longest w => do
    let value ← demanded
    let chunks ← chunksOf output {} w
    let left := trimmed atEnd longest (chunks.flatMap Chunk.letters) value.toList
    pure (valueChunks p m inQuotes (← get) (left.map fun c => ⟨c, inQuotes⟩))
where
  /-- The value of the parameter, if it counts as set. -/
  set? (s : State) (nullToo : Bool) : Option String :=
    (s.parameter? p m.fields inQuotes).filter fun v => !nullToo || !v.isEmpty
  /-- The chunks of a value that has been found. -/
  found (value : String) : Act (List Chunk) := do
    pure (valueChunks p m inQuotes (← get) (lettersOf inQuotes value))
  /-- The value of the parameter, which must be set if the script is strict about that. -/
  demanded : Act String := do
    let s ← get
    match s.parameter? p m.fields inQuotes with
    | some value => pure value
    | none => if s.has 'u' then Act.fail (p.text ++ ": parameter not set") else pure ""

end

/-- The words that a word stands for. -/
def fieldsOf (output : Command → Act String) (w : Word) : Act (List String) := do
  let chunks ← chunksOf output { fields := true } w
  let s ← get
  pure ((Fields.ofChunks s.separators chunks).flatMap (namesOf s.disk))

/-- The letters of a word that is not split. -/
def lettersOfWord (output : Command → Act String) (w : Word) : Act (List Letter) := do
  pure ((← chunksOf output {} w).flatMap Chunk.letters)

/-- The text of a word that is not split. -/
def textOfWord (output : Command → Act String) (w : Word) : Act String := do
  pure (textOf (← lettersOfWord output w))

end FpgaProject.Shell
