import FpgaProject.Disk.Basic
import FpgaProject.Disk.Fault

/-!
Programs that are started.

What a program does is known from what it leaves behind: the disk, what it has printed and how it
ended. A launcher says this of every program, or why it cannot be started; nothing else is assumed
of the programs.
-/

namespace FpgaProject

/-- What has been printed, as output and as diagnostics. -/
structure Console where
  out : String := ""
  err : String := ""
deriving DecidableEq, Repr

namespace Console

def print (c : Console) (s : String) : Console :=
  { c with out := c.out ++ s }

def printError (c : Console) (s : String) : Console :=
  { c with err := c.err ++ s }

/-- What is printed first and what is printed then. -/
def append (c later : Console) : Console :=
  ⟨c.out ++ later.out, c.err ++ later.err⟩

end Console

/-- What has been printed, and what programs that have ended have left running: what is printed after
everything else, and the disk as it is then. -/
structure Screen where
  console : Console := {}
  later : Console := {}
  left : Option Disk := none

namespace Screen

def showing (text : String) : Screen :=
  { console := { out := text } }

def print (s : Screen) (text : String) : Screen :=
  { s with console := s.console.print text }

end Screen

inductive Ending where
  | exited (code : Nat)
  | killed
deriving DecidableEq, Repr

/-- What a program leaves behind, and what others that it has left running print and leave on the disk
in the end. -/
structure Aftermath where
  disk : Disk
  console : Console
  ending : Ending
  later : Console := {}
  left : Option Disk := none

def Screen.after (s : Screen) (a : Aftermath) : Screen where
  console := s.console.append a.console
  later := s.later.append a.later
  left := a.left.or s.left

/-- What comes of starting a program in a directory with some arguments. -/
abbrev Launcher := Disk → Path → String → List String → Except Fault Aftermath

end FpgaProject
