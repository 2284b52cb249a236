/-!
Signals.

A signal has a number and a name. Where nothing else is said it ends what it is sent to.
-/

namespace FpgaProject.Shell.Signal

def names : List String :=
  ["HUP", "INT", "QUIT", "ILL", "TRAP", "ABRT", "BUS", "FPE", "KILL", "USR1", "SEGV", "USR2",
    "PIPE", "ALRM", "TERM"]

/-- The signal that a text means, a number or a name in any case. Zero is the end of a script. -/
def number? (s : String) : Option Nat :=
  if !s.isEmpty && s.toList.all Char.isDigit then
    s.toNat?.filter (· ≤ names.length)
  else
    let name := s.map Char.toUpper
    if name = "EXIT" then some 0
    else (names.findIdx? (· = name)).map (· + 1)

/-- The signal that nothing can be said about. -/
def kill : Nat := 9

def terminate : Nat := 15

/-- What the shell says when a command has been ended by a signal. -/
def message? : Nat → Option String
  | 1 => some "Hangup"
  | 3 => some "Quit"
  | 4 => some "Illegal instruction"
  | 5 => some "Trace/breakpoint trap"
  | 6 => some "Aborted"
  | 7 => some "Bus error"
  | 8 => some "Floating point exception"
  | 9 => some "Killed"
  | 10 => some "User defined signal 1"
  | 11 => some "Segmentation fault"
  | 12 => some "User defined signal 2"
  | 14 => some "Alarm clock"
  | 15 => some "Terminated"
  | _ => none

end FpgaProject.Shell.Signal
