import FpgaProject.CommandLine.Complaint
import FpgaProject.CommandLine.Token
import FpgaProject.Text.Near

/-!
Taking arguments from a command line.

What has been taken leaves a hole, so that the value of an option is looked for right behind it and
nowhere else. Whoever asks for help gets it, whatever else is wrong: before a complaint is made, the
help page takes its place. Only the name of a command that is nearly right is complained about
first.
-/

namespace FpgaProject.CommandLine

/-- A command line from which arguments are taken: the tokens that are left, the flags that have
been asked for so far, the help page that fits, and whether help is wanted. -/
structure Arguments where
  slots : List (Option Token)
  known : List String
  page : String
  wantsHelp : Bool
deriving Repr

/-- Why a command line is not carried out. -/
inductive Refusal where
  | help (page : String)
  | complaint (c : Complaint)
deriving DecidableEq, Repr

abbrev Taking := StateT Arguments (Except Refusal)

namespace Arguments

/-- A command line from which nothing has been taken. -/
def ofList (args : List String) : Arguments where
  slots := (Token.ofArguments 0 args).map some
  known := []
  page := ""
  wantsHelp := false

/-- The places of tokens that pass a test, in order. -/
def places (a : Arguments) (p : Token → Bool) : List Nat :=
  (List.range a.slots.length).filter fun i => (a.slots[i]?.join).any p

def tokenAt? (a : Arguments) (i : Nat) : Option Token :=
  a.slots[i]?.join

/-- The command line without the token at a place. -/
def without (a : Arguments) (i : Nat) : Arguments :=
  { a with slots := a.slots.set i none }

def isMarked : Token → Bool
  | .flag _ | .switch _ => true
  | _ => false

/-- The first flag or switch that is left, with its place. -/
def firstMarked? (a : Arguments) : Option (Nat × Token) :=
  (a.places isMarked).head?.bind fun i => (a.tokenAt? i).map fun t => (i, t)

/-- Whether a text may have been meant for a name. One that is not all ASCII may have been meant for
any name. -/
def resembles (s name : String) : Bool :=
  s.toList.any (fun c => 0x80 ≤ c.toNat) || Text.isNear s.toList name.toList

/-- The flag asked for so far for which a token may have been meant. A switch is not taken for a
flag. -/
def similar? (a : Arguments) : Token → Option String
  | .flag name => a.known.find? (resembles name)
  | _ => none

end Arguments

namespace Taking

/-- Makes a complaint, unless help is wanted. -/
def complain {α : Type} (c : Complaint) : Taking α := do
  let a ← get
  throw (if a.wantsHelp then .help a.page else .complaint c)

def note (name : String) : Taking Unit :=
  modify fun a => { a with known := a.known ++ [name] }

/-- Takes the value behind a place that has just been emptied: one that is attached or, if `words`
is set, a word. -/
def valueBehind (i : Nat) (words : Bool) : Taking (Option String) := do
  let a ← get
  match a.tokenAt? (i + 1) with
  | some (.attached value) =>
    set (a.without (i + 1))
    pure (some value)
  | some (.word value _) =>
    if words then
      set (a.without (i + 1))
      pure (some value)
    else pure none
  | _ => pure none

/-- Takes all occurrences of a flag, each with its value if it has one. -/
def occurrences (name : String) (letter : Option String) (words : Bool) :
    Taking (List (Option String)) := do
  note name
  let a ← get
  let spelled := a.places (· = .flag name)
  let lettered := a.places fun t => letter.any fun l => t = .switch l
  (spelled ++ lettered).mapM fun i => do
    modify (·.without i)
    valueBehind i words

def flagLabel (name : String) : String :=
  "--" ++ name

def optionLabel (name value : String) : String :=
  "--" ++ name ++ " <" ++ value ++ ">"

def positionalLabel (name : String) : String :=
  "<" ++ name ++ ">"

def flag (name : String) (letter : Option String := none) : Taking Bool := do
  let found ← occurrences name letter false
  match found.filterMap id with
  | value :: _ => complain (.unexpectedValue (flagLabel name) value)
  | [] =>
    match found with
    | [] => pure false
    | [_] => pure true
    | _ => complain (.repeated (flagLabel name))

abbrev ValueReader (α : Type) := String → Except String α

def anyText : ValueReader String := .ok

def option {α : Type} (name value : String) (read : ValueReader α) : Taking (Option α) := do
  let label := optionLabel name value
  match ← occurrences name none true with
  | [] => pure none
  | [none] => complain (.missingValue label)
  | [some s] =>
    match read s with
    | .ok a => pure (some a)
    | .error reason => complain (.refusedValue label s reason)
  | _ => complain (.repeated label)

def assist : Taking Unit := do
  let a ← get
  if a.wantsHelp then throw (.help a.page)

/-- Sets the help page, and looks whether help is wanted. Help that is asked for twice is given at
once. -/
def help (page : String) : Taking Unit := do
  modify ({ · with page := page })
  if !(← get).wantsHelp then
    let found ← occurrences "help" (some "h") false
    match found.filterMap id with
    | value :: _ => complain (.unexpectedValue (flagLabel "help") value)
    | [] => modify ({ · with wantsHelp := found ≠ [] })
    if 1 < found.length then assist

def suggestFor (t : Token) : Taking Unit := do
  match (← get).similar? t with
  | some k => complain (.similarArgument t.text (flagLabel k))
  | none => pure ()

/-- Offers the flag that may have been meant by one that is left: by the first of those for which
there is one. -/
def suggest : Taking Unit := do
  let a ← get
  ((a.places Arguments.isMarked).filterMap a.tokenAt?).forM suggestFor

/-- Complains if anything is left, about flags and switches first. -/
def finish : Taking Unit := do
  assist
  let a ← get
  if let some (_, t) := a.firstMarked? then suggestFor t
  match a.firstMarked?.map Prod.snd with
  | some t => complain (.leftOver t.text)
  | none =>
    match a.slots.filterMap id with
    | t :: _ => complain (.leftOver t.text)
    | [] => pure ()

def word? : Taking (Option (Nat × String)) := do
  let a ← get
  match (a.places fun | .word .. => true | _ => false).head? with
  | none => pure none
  | some i =>
    match a.tokenAt? i with
    | some (.word s number) =>
      set (a.without i)
      pure (some (number, s))
    | _ => pure none

def positional? {α : Type} (name : String) (read : ValueReader α) : Taking (Option α) := do
  match ← word? with
  | none => pure none
  | some (_, s) =>
    match read s with
    | .ok a => pure (some a)
    | .error reason => do
      suggest
      complain (.refusedValue (positionalLabel name) s reason)

def positional {α : Type} (name : String) (read : ValueReader α) : Taking α := do
  match ← positional? name read with
  | some a => pure a
  | none => do
    finish
    complain (.missingPositional (positionalLabel name))

/-- The first flag that is left, if it stands before the command that as many arguments precede as
`number` says. The place of the flag is counted in tokens, so what is attached to the arguments
before it, or several switches in one of them, may move it behind the command. -/
def flagBefore? (number : Nat) : Taking (Option Token) := do
  pure (((← get).firstMarked?.filter fun f => f.1 < number).map Prod.snd)

/-- Takes the name of a command, if there is one. No flag may stand before it. What stands behind
a word that names no command is not looked at. -/
def command? (name : String) (commands : List String) : Taking (Option String) := do
  match ← word? with
  | none => pure none
  | some (number, s) => do
    let early ← flagBefore? number
    match early with
    | some t => do
      assist
      suggestFor t
    | none => pure ()
    if s ∈ commands then
      match early with
      | some t => complain (.misplaced t.text s)
      | none => pure (some s)
    else
      match commands.find? (Arguments.resembles s) with
      | some c => throw (.complaint (.similarCommand s c))
      | none => complain (.unknownCommand s (positionalLabel name))

end Taking

end FpgaProject.CommandLine
