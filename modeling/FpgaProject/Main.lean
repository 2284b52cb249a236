import FpgaProject.CommandLine.Run
import FpgaProject.Disk.Changes
import FpgaProject.Shell.Launch

/-!
The program.

The disk below the working directory is read, the command line is carried out on it, and what has
changed is written back. A file counts as a program if its first line names an interpreter.
-/

namespace FpgaProject

/-- Whether the bytes of a file are those of a program. -/
def namesInterpreter (raw : List UInt8) : Bool :=
  raw.take 2 == "#!".toUTF8.toList

/-- Reads a directory, whose location is given, with all below it. -/
partial def readTree (entries : Array IO.FS.DirEntry) (l : Location) (d : Disk) : IO Disk :=
  entries.foldlM
    (fun d entry => do
      let here := l ++ [entry.fileName]
      if ← entry.path.isDir then
        readTree (← entry.path.readDir) here (d.put here .directory)
      else
        let raw := (← IO.FS.readBinFile entry.path).toList
        pure (d.put here (.file (.ofBytes raw) (namesInterpreter raw))))
    d

def readDisk : IO Disk := do
  let here ← IO.currentDir
  let cwd := (Path.mk here.toString).pieces
  readTree (← here.readDir) cwd (Disk.empty cwd)

def writeChange : Disk.Change → IO Unit
  | .madeDirectory path => IO.FS.createDirAll path
  | .wrote path (.text s) => IO.FS.writeFile path s
  | .wrote path (.bytes raw) => IO.FS.writeBinFile path ⟨raw.toArray⟩
  | .removed path =>
    try
      if path.endsWith "/" then IO.FS.removeDirAll path else IO.FS.removeFile path
    catch _ => pure ()

def readEnvironment : IO CommandLine.Environment := do
  pure {
    tool := ← IO.getEnv "VPROJ_VIVADO"
    log := ← IO.getEnv "VPROJ_LOG"
    noColour := ← IO.getEnv "NO_COLOR"
    forceColour := ← IO.getEnv "CLICOLOR_FORCE" }

def readVariables : IO (List (String × String)) :=
  ["HOME", "LANG", "PATH", "TMPDIR", "USER"].filterMapM fun name => do
    pure ((← IO.getEnv name).map fun value => (name, value))

/-- Carries out a command line and gives the code to end with. -/
def program (args : List String) : IO UInt32 := do
  let before ← readDisk
  let outcome := CommandLine.run (Shell.launcher (← readVariables)) (← readEnvironment) args before
  (Disk.changes before outcome.disk before.cwd).forM writeChange
  IO.print outcome.console.out
  IO.eprint outcome.console.err
  pure (UInt32.ofNat outcome.code)

end FpgaProject

def main (args : List String) : IO UInt32 :=
  FpgaProject.program args
