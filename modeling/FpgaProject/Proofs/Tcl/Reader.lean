/-!
How Tcl takes a text apart.

A script is commands, a command is words, and which characters end a word depends on how it was
begun: a bare word ends at a blank or at the end of the command, one in quotes at the next quote, one
in braces at the brace that closes it. A backslash, a dollar sign or an opening bracket stands for a
substitution. `next` reads one character and says what that completes, and `run` reads a text; a
word is told by its value if nothing in it is substituted. Lists are read by the same rules with
other separators and without substitutions by variables and commands. A word behind `{*}` is not
told apart from a broken one.
-/

namespace FpgaProject.Tcl

/-! ### What is read -/

/-- The separators of a text, neither a colon nor a slash among them, and whether variables and
commands are substituted in it. -/
structure Rules where
  blank : Char → Bool
  ends : Char → Bool
  substitutes : Bool
  colon : blank ':' = false ∧ ends ':' = false
  slash : blank '/' = false ∧ ends '/' = false

/-- White space within a line. -/
def isSpace (c : Char) : Bool :=
  c = ' ' || c = '\t' || c = '\x0b' || c = '\x0c' || c = '\r'

def script : Rules where
  blank := isSpace
  ends c := c = '\n' || c = ';'
  substitutes := true
  colon := by decide
  slash := by decide

def list : Rules where
  blank c := isSpace c || c = '\n'
  ends _ := false
  substitutes := false
  colon := by decide
  slash := by decide

/-- A word: its value as it stands, or one that depends on a substitution. -/
inductive Word where
  | literal (value : List Char)
  | substituted
deriving DecidableEq, Repr

/-- What is completed while a text is read. -/
inductive Event where
  | word (w : Word)
  | endCommand
  | enter
  | leave
deriving DecidableEq, Repr

/-- How a word that is not in braces is written. -/
inductive Style where
  | bare
  | quoted
deriving DecidableEq, Repr

/-- What is being read. A word comes with its value up to here, and with whether it is pure: nothing
in it is substituted. -/
inductive Current where
  | between (begun : Bool)
  | gap (begun : Bool)
  | comment (escaped : Bool)
  | word (style : Style) (value : List Char) (pure : Bool)
  | escape (style : Style) (value : List Char) (pure : Bool)
  | dollar (style : Style) (value : List Char) (pure : Bool)
  | colon (style : Style) (value : List Char) (pure : Bool)
  | name (style : Style)
  | bracedName (style : Style)
  | index (style : Style)
  | braced (depth : Nat) (value : List Char) (pure : Bool)
  | bracedEscape (depth : Nat) (value : List Char) (pure : Bool)
  | closed (value : List Char) (pure : Bool)
  | broken
deriving DecidableEq, Repr

/-- What is being read, and what each bracket around it interrupted. -/
structure Control where
  stack : List Current
  current : Current
deriving DecidableEq, Repr

/-- At the start of a script. -/
def Control.fresh : Control :=
  ⟨[], .between false⟩

/-! ### Reading a character -/

/-- A character of the name of a variable. -/
def isNameChar (c : Char) : Bool :=
  c.isAlphanum || c = '_'

/-- A word that has been completed. -/
def wordOf (value : List Char) (pure : Bool) : Word :=
  if pure then .literal value else .substituted

/-- Something else is being read, within the same brackets. -/
def reading (stack : List Current) (current : Current) : List Event × Control :=
  ([], ⟨stack, current⟩)

/-- A character that parts words or ends a command, a bracketed one included. -/
def separate? (x : Rules) (stack : List Current) (begun : Bool) (c : Char) :
    Option (List Event × Control) :=
  if x.blank c then some (reading stack (.between begun))
  else if x.ends c then some (if begun then [.endCommand] else [], ⟨stack, .between false⟩)
  else if c = ']' then
    match stack with
    | [] => none
    | outer :: stack => some ([.leave], ⟨stack, outer⟩)
  else none

/-- A character in a word that does not end it. -/
def within (x : Rules) (stack : List Current) (style : Style) (value : List Char) (pure : Bool)
    (c : Char) : List Event × Control :=
  if x.substitutes && c = '[' then ([.enter], ⟨.word style value false :: stack, .between false⟩)
  else if x.substitutes && c = '$' then reading stack (.dollar style value pure)
  else if c = '\\' then reading stack (.escape style value pure)
  else reading stack (.word style (value ++ [c]) pure)

/-- A character behind a word that is complete if the character parts words. -/
def finish? (x : Rules) (stack : List Current) (value : List Char) (pure : Bool) (c : Char) :
    Option (List Event × Control) :=
  (separate? x stack true c).map fun (events, k) => (.word (wordOf value pure) :: events, k)

/-- A character in a word. -/
def proceed (x : Rules) (stack : List Current) (style : Style) (value : List Char) (pure : Bool)
    (c : Char) : List Event × Control :=
  match style with
  | .bare => (finish? x stack value pure c).getD (within x stack .bare value pure c)
  | .quoted =>
    if c = '"' then reading stack (.closed value pure) else within x stack .quoted value pure c

/-- A character in front of a word. -/
def start (x : Rules) (stack : List Current) (begun : Bool) (c : Char) : List Event × Control :=
  if c = '#' ∧ begun = false ∧ x.substitutes = true then reading stack (.comment false)
  else if c = '\x7b' then reading stack (.braced 0 [] true)
  else if c = '"' then reading stack (.word .quoted [] true)
  else if c = '\\' then reading stack (.gap begun)
  else within x stack .bare [] true c

/-- Reads a character: what it completes, and what is being read then. -/
def next (x : Rules) (k : Control) (c : Char) : List Event × Control :=
  match k.current with
  | .between begun => (separate? x k.stack begun c).getD (start x k.stack begun c)
  | .gap begun => reading k.stack (if c = '\n' then .between begun else .word .bare [] false)
  | .comment escaped =>
    reading k.stack (if c = '\n' ∧ escaped = false then .between false
      else .comment (c = '\\' ∧ escaped = false))
  | .word style value pure => proceed x k.stack style value pure c
  | .escape style value pure =>
    if c = '\n' ∧ style = .bare then ([.word (wordOf value pure)], ⟨k.stack, .between true⟩)
    else reading k.stack (.word style value false)
  | .dollar style value pure =>
    if isNameChar c then reading k.stack (.name style)
    else if c = '\x7b' then reading k.stack (.bracedName style)
    else if c = '(' then reading k.stack (.index style)
    else if c = ':' then reading k.stack (.colon style value pure)
    else proceed x k.stack style (value ++ ['$']) pure c
  | .colon style value pure =>
    if c = ':' then reading k.stack (.name style)
    else proceed x k.stack style (value ++ ['$', ':']) pure c
  | .name style =>
    if isNameChar c then reading k.stack (.name style)
    else if c = '(' then reading k.stack (.index style)
    else if c = ':' then reading k.stack (.colon style [] false)
    else proceed x k.stack style [] false c
  | .bracedName style =>
    reading k.stack (if c = '\x7d' then .word style [] false else .bracedName style)
  | .index style =>
    if c = '[' then ([.enter], ⟨.index style :: k.stack, .between false⟩)
    else reading k.stack (if c = ')' then .word style [] false else .index style)
  | .braced depth value pure =>
    if c = '\\' then reading k.stack (.bracedEscape depth value pure)
    else if c = '\x7b' then reading k.stack (.braced (depth + 1) (value ++ [c]) pure)
    else if c = '\x7d' then
      match depth with
      | 0 => reading k.stack (.closed value pure)
      | depth + 1 => reading k.stack (.braced depth (value ++ [c]) pure)
    else reading k.stack (.braced depth (value ++ [c]) pure)
  | .bracedEscape depth value pure =>
    reading k.stack (.braced depth (value ++ ['\\', c]) (pure && c ≠ '\n'))
  | .closed value pure => (finish? x k.stack value pure c).getD (reading k.stack .broken)
  | .broken => reading k.stack .broken

def run (x : Rules) (k : Control) : List Char → List Event × Control
  | [] => ([], k)
  | c :: s => ((next x k c).1 ++ (run x (next x k c).2 s).1, (run x (next x k c).2 s).2)

variable {x : Rules} {k : Control} {stack : List Current}

@[simp] theorem run_nil : run x k [] = ([], k) := rfl

/-- Reading a character that completes nothing. -/
theorem run_cons_of_reading {c : Char} {current : Current}
    (h : next x k c = reading stack current) (s : List Char) :
    run x k (c :: s) = run x ⟨stack, current⟩ s := by
  simp [run, h, reading]

theorem run_cons_congr {k' : Control} {c : Char} (h : next x k c = next x k' c) (s : List Char) :
    run x k (c :: s) = run x k' (c :: s) := by
  simp [run, h]

/-- Texts are read one after another. -/
theorem run_append (s t : List Char) :
    run x k (s ++ t) =
      ((run x k s).1 ++ (run x (run x k s).2 t).1, (run x (run x k s).2 t).2) := by
  induction s generalizing k with
  | nil => simp
  | cons c s ih => simp [run, ih, List.append_assoc]

end FpgaProject.Tcl
