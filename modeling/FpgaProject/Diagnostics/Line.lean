import FpgaProject.Diagnostics.Filter

/-!
Lines for events.

A line has the level, the topic and the message. In colour the level has one of its own and the
topic stands back. Controls that a terminal would obey are written by their numbers.
-/

namespace FpgaProject.Diagnostics

def levelWord : Level → String
  | .error => "ERROR"
  | .warn => "WARN"
  | .info => "INFO"
  | .debug => "DEBUG"
  | .trace => "TRACE"

def levelColour : Level → String
  | .error => "31"
  | .warn => "33"
  | .info => "32"
  | .debug => "34"
  | .trace => "35"

def levelWidth : Nat := 5

/-- The word for a level, moved to the right end of its place. -/
def levelField (l : Level) : String :=
  let word := levelWord l
  String.ofList (List.replicate (levelWidth - word.length) ' ') ++ word

/-- The form of a character that no terminal obeys. -/
def shielded (c : Char) : String :=
  let n := c.toNat
  let digits := String.ofList (Nat.toDigits 16 n)
  if n = 0x07 ∨ n = 0x08 ∨ n = 0x0C then "\\x0" ++ digits
  else if n = 0x1B ∨ n = 0x7F then "\\x" ++ digits
  else if 0x80 ≤ n ∧ n ≤ 0x9F then "\\u\x7b" ++ digits ++ "\x7d"
  else String.singleton c

def shieldedText (s : String) : String :=
  String.join (s.toList.map shielded)

def line (coloured : Bool) (e : Event) : String :=
  let field := levelField e.level
  let message := shieldedText e.message ++ "\n"
  if coloured then
    highlighted (levelColour e.level) field ++ " " ++ highlighted "2" e.topic.name ++
      highlighted "2" ":" ++ " " ++ message
  else field ++ " " ++ e.topic.name ++ ": " ++ message

def lines (f : Filter) (coloured : Bool) (events : List Event) : String :=
  String.join ((events.filter f.shows).map (line coloured))

end FpgaProject.Diagnostics
