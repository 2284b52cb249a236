/-!
Commands of shell scripts.

A command is made of words, and a word of pieces: text with or without quotes, and values that are
known only when the command is run, which are those of parameters, what other commands print, and
numbers that are worked out. Commands are joined to larger ones and may lead files to their
channels.
-/

namespace FpgaProject.Shell

def isNameStart (c : Char) : Bool :=
  c.isAlpha || c = '_'

def isNameChar (c : Char) : Bool :=
  isNameStart c || c.isDigit

def isName (s : String) : Bool :=
  s.toList.head?.any isNameStart && s.toList.all isNameChar

/-- A parameter: what is known to a script beside its text. -/
inductive Parameter where
  | arguments
  | line
  | count
  | status
  | process
  | background
  | argument (n : Nat)
  | value (name : String)
deriving DecidableEq, Repr

def Parameter.text : Parameter → String
  | .arguments => "@"
  | .line => "*"
  | .count => "#"
  | .status => "?"
  | .process => "$"
  | .background => "!"
  | .argument n => toString n
  | .value name => name

/-- Where a channel is led, as far as it does not depend on a word: to a file, or where another
channel leads. -/
inductive Leading where
  | write
  | append
  | read
  | output
  | input
deriving DecidableEq, Repr

/-- The ways to go on with a loop from within. -/
inductive Jump where
  | leave
  | next
deriving DecidableEq, Repr

mutual

inductive Piece where
  | plain (s : List Char)
  | quoted (s : List Char)
  | parameter (p : Parameter) (use : Use) (inQuotes : Bool)
  | output (c : Command) (inQuotes : Bool)
  | number (e : List Piece) (inQuotes : Bool)

/-- What is done with the value of a parameter. Where there is a word, `nullToo` tells whether an
empty value is treated as if there were none. -/
inductive Use where
  | itself
  | length
  | default (nullToo : Bool) (w : List Piece)
  | assign (nullToo : Bool) (w : List Piece)
  | demand (nullToo : Bool) (w : List Piece)
  | replace (nullToo : Bool) (w : List Piece)
  | trim (atEnd longest : Bool) (w : List Piece)

/-- A channel that is led somewhere: to a file or another channel, which a word names, or to a text
in the script, by its number. -/
inductive Redirection where
  | word (channel : Nat) (way : Leading) (w : List Piece)
  | text (channel : Nat) (document : Nat)

/-- A command. A command that is made of words has the number of the line in which it starts. -/
inductive Command where
  | nothing
  | simple (line : Nat) (assignments : List (String × List Piece)) (words : List (List Piece))
      (redirections : List Redirection)
  | sequence (first second : Command)
  | both (first second : Command)
  | either (first second : Command)
  | negation (c : Command)
  | pipe (first second : Command)
  | background (c : Command)
  | apart (c : Command)
  | led (c : Command) (redirections : List Redirection)
  | choice (condition yes no : Command)
  | loop (wanted : Bool) (condition body : Command)
  | each (name : String) (words : List (List Piece)) (body : Command)
  | branch (subject : List Piece) (branches : List (List (List Piece) × Command))
  | definition (name : String) (body : Command)

end

instance : Inhabited Command := ⟨.nothing⟩

abbrev Word := List Piece

end FpgaProject.Shell
