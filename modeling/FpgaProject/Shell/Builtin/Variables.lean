import FpgaProject.Shell.Expansion

/-!
The commands of the shell that change its variables, options and arguments.

A command of the shell itself gets its words and may change everything about a script. It gives a
status, or fails with a complaint under its name.
-/

namespace FpgaProject.Shell

abbrev Builtin := List String → Act Nat

namespace Builtin

def number (s : String) : Act Nat := do
  match numberOf? false s with
  | some n => if 0 ≤ n then pure n.toNat else Act.fail ("Illegal number: " ++ s)
  | none => Act.fail ("Illegal number: " ++ s)

def checkName (name : String) : Act Unit := do
  if !isName name then Act.fail (name ++ ": bad variable name")

def cutAtEquals (s : String) : String × Option String :=
  let (name, value) := s.toList.span (· ≠ '=')
  (String.ofList name, if value.isEmpty then none else some (String.ofList value.tail))

def markExported (name : String) : Act Unit :=
  modify fun s => s.bind name (some { (s.bindings.lookup name).getD {} with exported := true })

/-- Does something with variables, which may get values first. -/
def forVariables (act : String → Act Unit) : Builtin := fun args => do
  args.forM fun arg => do
    let (name, value) := cutAtEquals arg
    checkName name
    act name
    value.forM (Act.assign name)
  pure 0

def exportNames : Builtin :=
  forVariables markExported

/-- Makes variables of a function, which have their old values again when it ends. -/
def localNames : Builtin := fun args => do
  if (← get).calls = 0 then Act.fail "not in a function"
  forVariables (fun name => modify fun s =>
    match s.hidden with
    | top :: more => { s with hidden := ((name, s.bindings.lookup name) :: top) :: more }
    | [] => s) args

def unset : Builtin := fun args => do
  match args with
  | "-f" :: names => modify fun s =>
      { s with functions := s.functions.filter fun f => !names.contains f.1 }
  | "-v" :: names => names.forM fun n => modify (·.bind n none)
  | names => names.forM fun n => do
      checkName n
      modify (·.bind n none)
  pure 0

def shift : Builtin := fun args => do
  let n ← match args with
    | [] => pure 1
    | a :: _ => number a
  let s ← get
  if s.arguments.length < n then Act.fail "can't shift that many"
  set { s with arguments := s.arguments.drop n, optionIndex := 1, optionPlace := 0 }
  pure 0

/-- Sets the options at the front of words, at most `fuel` words of them, or takes them back. What is
left becomes the arguments if there is anything, or if two hyphens say so. -/
def setWords : Nat → List String → Act (Option (List String))
  | 0, args => pure (some args)
  | _, [] => pure none
  | fuel + 1, arg :: more => do
    let change (on : Bool) (letters : List Char) : Act (Option (List String)) := do
      match letters.find? fun c => c ≠ 'e' && c ≠ 'u' with
      | some c => Act.fail ("Illegal option -" ++ String.singleton c)
      | none => do
        modify fun s =>
          let others := s.options.filter (!letters.contains ·)
          { s with options := if on then letters ++ others else others }
        setWords fuel more
    match arg.toList with
    | ['-', '-'] => pure (some more)
    | '-' :: letters => change true letters
    | '+' :: letters => change false letters
    | _ => pure (some (arg :: more))

def setAll : Builtin := fun args => do
  match ← setWords (args.length + 1) args with
  | some words => modify ({ · with arguments := words, optionIndex := 1, optionPlace := 0 })
  | none => pure ()
  pure 0

/-! ### Reading a line -/

/-- A line at the front of a text: its letters, how many characters it takes, and whether it has an
end. A backslash hides the letter behind it, or joins two lines, unless it is `raw`. -/
def takeLine (raw : Bool) : List Char → List Letter × Nat × Bool
  | [] => ([], 0, false)
  | '\n' :: _ => ([], 1, true)
  | ['\\'] => (if raw then [⟨'\\', false⟩] else [], 1, false)
  | '\\' :: c :: s =>
    if raw then
      let (line, n, isEnded) := takeLine raw (c :: s)
      (⟨'\\', false⟩ :: line, n + 1, isEnded)
    else
      let (line, n, isEnded) := takeLine raw s
      (if c = '\n' then line else ⟨c, true⟩ :: line, n + 2, isEnded)
  | c :: s =>
    let (line, n, isEnded) := takeLine raw s
    (⟨c, false⟩ :: line, n + 1, isEnded)

/-- The parts of a line, at most `n` of them, of which the last one is what is left of the line. -/
def lineParts (separators : List Char) : Nat → List Letter → List (List Letter)
  | 0, _ => []
  | n + 1, line =>
    let separates (l : Letter) : Bool := !l.isHidden && separators.contains l.char
    let isBlank (l : Letter) : Bool := separates l && [' ', '\t', '\n'].contains l.char
    let line := line.dropWhile isBlank
    let part := line.takeWhile (!separates ·)
    let gap := (line.drop part.length).dropWhile isBlank
    -- One separator that is no blank belongs to the gap, with the blanks on both its sides.
    let behind := match gap with
      | l :: rest => if separates l then rest.dropWhile isBlank else gap
      | [] => []
    if line = [] then []
    else if n = 0 && behind ≠ [] then [(line.reverse.dropWhile isBlank).reverse]
    else part :: lineParts separators n behind

def read : Builtin := fun args => do
  let (raw, names) := if args.head? = some "-r" then (true, args.tail) else (false, args)
  if names.isEmpty then Act.fail "arg count"
  names.forM checkName
  let s ← get
  let (line, n, isEnded) := takeLine raw (s.charsOn 0)
  set (s.consume 0 n)
  let parts := lineParts s.separators names.length line
  names.zipIdx.forM fun (name, n) => Act.assign name (textOf (parts.getD n []))
  pure (if isEnded then 0 else 1)

/-! ### Taking options apart -/

/-- What one step through the words of a script finds: the letter of an option, its value, a
complaint, and the place behind it: the number of the next word, and the place in the one before. -/
structure OptionStep where
  letter : Char := '?'
  value : Option String := none
  complaint : Option String := none
  index : Nat
  place : Nat := 0

/-- The option with a letter, where `rest` stands behind it in its word and `index` is the number of
the next word. -/
def optionAt (letters : List Char) (words : List String) (index place : Nat) (c : Char)
    (rest : List Char) : OptionStep :=
  let isSilent := letters.head? = some ':'
  let next : OptionStep := { index := index, place := if rest.isEmpty then 0 else place + 1 }
  match if c = ':' then [] else letters.dropWhile (· ≠ c) with
  | [] =>
    if isSilent then { next with value := some (String.singleton c) }
    else { next with complaint := some ("Illegal option -" ++ String.singleton c) }
  | _ :: ':' :: _ =>
    if !rest.isEmpty then { letter := c, value := some (String.ofList rest), index := index }
    else
      match words[index - 1]? with
      | some value => { letter := c, value := some value, index := index + 1 }
      | none =>
        if isSilent then { letter := ':', value := some (String.singleton c), index := index }
        else { index := index, complaint := some ("No arg for -" ++ String.singleton c ++ " option") }
  | _ => { next with letter := c, value := some "" }

/-- Finds the next option in words, if there is one, or the number of the word behind all options. -/
def optionStep (letters : List Char) (words : List String) (index place : Nat) :
    OptionStep ⊕ Nat :=
  let current := if 1 < index && 0 < place then (words.getD (index - 2) "").toList.drop place else []
  match current, (words.getD (index - 1) "").toList with
  | c :: rest, _ => .inl (optionAt letters words index place c rest)
  | [], ['-', '-'] => .inr (index + 1)
  | [], '-' :: c :: rest => .inl (optionAt letters words (index + 1) 1 c rest)
  | [], _ => .inr index

/-- Takes the next option from the arguments of the script, or from words. -/
def nextOption : Builtin := fun args => do
  match args with
  | letters :: name :: words => do
    let s ← get
    let words := if words.isEmpty then s.arguments else words
    match optionStep letters.toList words (max s.optionIndex 1) s.optionPlace with
    | .inl found => do
      found.complaint.forM fun text => modify (·.write 2 (text ++ "\n"))
      match found.value with
      | some value => Act.assign "OPTARG" value
      | none => modify (·.bind "OPTARG" none)
      Act.assign "OPTIND" (toString found.index)
      Act.assign name (String.singleton found.letter)
      modify ({ · with optionIndex := found.index, optionPlace := found.place })
      pure 0
    | .inr index => do
      Act.assign "OPTIND" (toString index)
      Act.assign name "?"
      pure 1
  | _ => Act.fail "Usage: getopts optstring var [arg...]"

end Builtin

end FpgaProject.Shell
