import FpgaProject.Shell.Builtin.Processes
import FpgaProject.Shell.Start

/-!
Running commands.

The commands of a pipe run one after another, each as a process that reads what the one before it has
printed. A strict script ends when a command fails whose failure nothing asks for.

How nested commands are run is handed down as a function, so that one more level of nesting is one
more step of the recursion in `run`.
-/

namespace FpgaProject.Shell

/-! ### Functions and commands of the shell -/

def callLimit : Nat := 1000

def callFunction (run : Runner) (tested : Bool) (body : Command) (args : List String) :
    Act Unit := do
  let s ← get
  if callLimit ≤ s.calls then Act.fail "Maximum function recursion depth (1000) reached"
  set { s with
    arguments := args, calls := s.calls + 1, loops := 0, hidden := [] :: s.hidden
    optionIndex := 1, optionPlace := 0 }
  let r ← Act.caught (run tested body)
  modify fun t =>
    { (t.hidden.headD []).foldl (fun t (name, b) => t.bind name b) t with
      arguments := s.arguments, calls := s.calls, loops := s.loops, hidden := s.hidden
      optionIndex := s.optionIndex, optionPlace := s.optionPlace }
  match r with
  | .error .back => pure ()
  | r => Act.resume r

/-- The status that ends something: the number in a word, or else the present one. -/
def endStatus (args : List String) : Act Unit := do
  match args with
  | [] => pure ()
  | word :: _ => do Act.setStatus (← Builtin.number word)

def jump (j : Jump) : Builtin := fun args => do
  let n ← match args with
    | [] => pure 1
    | word :: _ => Builtin.number word
  let around := (← get).loops
  Act.setStatus 0
  if around = 0 then pure 0 else throw (.loop j (min n around - 1))

def runFile (run : Runner) : Builtin := fun args => do
  let name := args.headD ""
  let s ← get
  let places := if name.toList.contains '/' then [name]
    else candidates ((s.value? "PATH").getD "") name
  let text? (path : String) : Option String :=
    match entryOf? s.disk path with
    | some (.file c _) => some (contentOctets c)
    | _ => none
  match places.findSome? text? with
  | none => Act.fail (if name.toList.contains '/' then "cannot open " ++ name ++ ": No such file"
      else name ++ ": not found")
  | some text => do
    set { s with speaker := some name, status := 0 }
    match ← Act.caught (runText run false text) with
    | .error .back => pure ()
    | r => Act.resume r
    pure (← get).status

/-- Starts a program for a script, which goes on when it has ended. -/
def startProgram (run : Runner) (name : String) (args : List String) : Act Unit := do
  let s ← get
  match executableFor s name with
  | .error (text, status) => do
    Act.warn text
    Act.setStatus status
  | .ok e => Act.inProcess id (execute run startLimit s.environment e args)

/-- Runs a program in place of the script. -/
def replace (run : Runner) : Builtin := fun args => do
  match args with
  | [] => pure 0
  | name :: args => do
    let s ← get
    match executableFor s name with
    | .error (text, status) => do
      Act.warn text
      Act.setStatus status
    | .ok e => do
      execute run startLimit s.environment e args
      modify ({ · with traps := [] })
    throw .exit

/-- What is written for the name of a command, if it means anything. -/
def described? (s : State) (isBuiltin : String → Bool) (name : String) : Option String :=
  if isBuiltin name || (s.functions.lookup name).isSome then some name
  else match findProgram s.disk ((s.value? "PATH").getD "") name with
    | (path, .ok _) => some path
    | _ => none

def builtin? (run : Runner) (tested : Bool) (name : String) : Option Builtin :=
  match name with
  | ":" | "true" => some fun _ => pure 0
  | "false" => some fun _ => pure 1
  | "." => some (runFile run)
  | "break" => some (jump .leave)
  | "continue" => some (jump .next)
  | "eval" => some fun args => do
    Act.setStatus 0
    runText run tested (" ".intercalate args)
    pure (← get).status
  | "exec" => some (replace run)
  | "exit" => some fun args => do
    endStatus args
    throw .exit
  | "return" => some fun args => do
    endStatus args
    throw .back
  | "export" => some Builtin.exportNames
  | "local" => some Builtin.localNames
  | "unset" => some Builtin.unset
  | "shift" => some Builtin.shift
  | "set" => some Builtin.setAll
  | "trap" => some Builtin.trap
  | "cd" => some Builtin.goTo
  | "pwd" => some Builtin.showDirectory
  | "getopts" => some Builtin.nextOption
  | "read" => some Builtin.read
  | "kill" => some Builtin.kill
  | "wait" => some (Builtin.wait run)
  | "echo" => some (utilityBuiltin echo name)
  | "printf" => some (utilityBuiltin printf name)
  | "test" => some (utilityBuiltin test name)
  | "[" => some (utilityBuiltin bracket name)
  | _ => none

/-- Runs a command of the shell itself. An error in it ends the script if the command is `fixed`. -/
def runBuiltin (b : Builtin) (name : String) (fixed : Bool) (args : List String) : Act Unit := do
  let speaker := (← get).speaker
  modify ({ · with speaker := some name })
  let r ← Act.caught (b args)
  modify ({ · with speaker := speaker })
  match r with
  | .ok status => Act.setStatus status
  | .error .error => if fixed then throw .error
  | .error e => throw e

/-- Runs a command by its name and words; functions are passed over if it is `plain`. -/
def invoke (run : Runner) (tested plain : Bool) (name : String) (args : List String) :
    Act Unit := do
  let isFixed := Reading.fixedCommands.contains name
  let functions := (← get).functions
  match if plain || isFixed then none else functions.lookup name, builtin? run tested name with
  | some body, _ => callFunction run tested body args
  | none, some b => runBuiltin b name (!plain && isFixed) args
  | none, none => startProgram run name args

/-- Runs a command that may be told by name to be no function. -/
def invokeNamed (run : Runner) (tested : Bool) : String → List String → Act Unit
  | "command", "-v" :: names => do
    let s ← get
    match names.head?.bind (described? s fun n => (builtin? run tested n).isSome) with
    | some text => do
      Act.print (text ++ "\n")
      Act.setStatus 0
    | none => Act.setStatus 127
  | "command", name :: args => invoke run tested true name args
  | "command", [] => Act.setStatus 0
  | name, args => invoke run tested false name args

/-! ### Simple commands -/

/-- The words of a command. Words that give variables values are not split behind a command that is
about variables. -/
def expandWords (run : Runner) (words : List Word) : Act (List String) :=
  words.foldlM (fun taken w => do
    let takesValues := taken.head?.any ["export", "local"].contains
    match if takesValues then Reading.assignment? w else none with
    | some (name, value) => do
      pure (taken ++ [name ++ "=" ++ (← textOfWord (substitution run) value)])
    | none => do pure (taken ++ (← fieldsOf (substitution run) w))) []

def giveValues (run : Runner) (assignments : List (String × Word)) : Act Unit :=
  assignments.forM fun (name, w) => do Act.assign name (← textOfWord (substitution run) w)

def runSimple (run : Runner) (tested : Bool) (line : Nat) (assignments : List (String × Word))
    (words : List Word) (redirections : List Redirection) : Act Unit := do
  modify ({ · with line := line, outputStatus := 0 })
  let words ← expandWords run words
  let leads ← redirections.mapM (·.lead (substitution run))
  let name := words.headD ""
  let isFixed := Reading.fixedCommands.contains name
  let refused : Act Unit := do
    Act.setStatus 2
    if isFixed then throw .error
  match words with
  | ["exec"] => do
    leads.forM fun (channel, l) => l.carryOut run channel
    giveValues run assignments
    Act.setStatus 0
  | [] => withLeads run leads refused do
    giveValues run assignments
    modify fun s => { s with status := s.outputStatus }
  | name :: args => withLeads run leads refused do
    let s ← get
    giveValues run assignments
    if isFixed then invokeNamed run tested name args
    else
      assignments.forM fun (n, _) => Builtin.markExported n
      Act.followedBy (invokeNamed run tested name args) (modify fun t =>
        assignments.foldl (fun t (n, _) => t.bind n (s.bindings.lookup n)) t)

/-! ### Compound commands -/

/-- Runs two commands, of which the second one reads what the first one has printed. -/
def runPipe (run : Runner) (tested : Bool) (first second : Command) : Act Unit := do
  let text ← outputOf run (run tested first)
  let channels := (← get).channels
  modify (·.lead 0 ⟨.text text, 0, false⟩)
  Act.followedBy (Act.inProcess id (toItsEnd run (run tested second)))
    (modify ({ · with channels := channels }))

/-- Does something once in a loop. Says whether the loop goes on. -/
def inLoop (act : Act Unit) : Act Bool := do
  match ← Act.caught act with
  | .ok () | .error (.loop .next 0) => pure true
  | .error (.loop .leave 0) => pure false
  | .error (.loop j (n + 1)) => throw (.loop j n)
  | .error e => throw e

/-- Does something that is a loop. -/
def asLoop (act : Act Unit) : Act Unit := do
  let loops := (← get).loops
  modify ({ · with loops := loops + 1 })
  Act.followedBy act (modify ({ · with loops := loops }))

/-- Runs a loop as long as its condition is as wanted. Its status is that of the last run. -/
def runLoop (run : Runner) (tested wanted : Bool) (condition body : Command) : Act Unit :=
  asLoop do
    let status ← Act.repeated (fun before => do
      run true condition
      if ((← get).status = 0) = wanted then
        let goes ← inLoop (run tested body)
        pure (goes, (← get).status)
      else pure (false, before)) Act.loopLimit 0
    Act.setStatus status

def runEach (run : Runner) (tested : Bool) (name : String) (body : Command) :
    List String → Act Unit
  | [] => pure ()
  | word :: more => do
    Act.assign name word
    if ← inLoop (run tested body) then runEach run tested name body more

def fitsOne (run : Runner) (text : List Char) : List Word → Act Bool
  | [] => pure false
  | w :: ws => do
    let p ← lettersOfWord (substitution run) w
    if (Pattern.ofLetters p).fits text then pure true else fitsOne run text ws

/-- Runs a command. One that is left out goes well. -/
def orNothing (run : Runner) (tested : Bool) : Command → Act Unit
  | .nothing => Act.setStatus 0
  | c => run tested c

/-- Runs the first of several branches of which a pattern fits a text. -/
def runBranch (run : Runner) (tested : Bool) (text : List Char) :
    List (List Word × Command) → Act Unit
  | [] => Act.setStatus 0
  | (patterns, body) :: more => do
    if ← fitsOne run text patterns then orNothing run tested body
    else runBranch run tested text more

/-- Ends a strict script if the last command has failed and nothing asks for its status. -/
def check (tested : Bool) : Act Unit := do
  let s ← get
  if s.has 'e' && !tested && s.status ≠ 0 then throw .exit

/-- Answers signals behind a command, and checks how it has ended. -/
def settle (run : Runner) (tested : Bool) : Act Unit := do
  answerSignals run 100
  check tested

/-- Runs a command, where those in it are run by `run`. -/
def step (run : Runner) (tested : Bool) (c : Command) : Act Unit := do
  match c with
  | .nothing => pure ()
  | .simple line assignments words redirections => do
    runSimple run tested line assignments words redirections
    settle run tested
  | .sequence a b => do
    run tested a
    run tested b
  | .both a b => do
    run true a
    if (← get).status = 0 then run tested b
  | .either a b => do
    run true a
    if (← get).status ≠ 0 then run tested b
  | .negation c => do
    run true c
    modify fun s => { s with status := if s.status = 0 then 1 else 0 }
  | .pipe first second => do
    runPipe run tested first second
    settle run tested
  | .background c => startJob c
  | .apart c => do
    Act.inProcess id (toItsEnd run (run tested c))
    settle run tested
  | .led c redirections => do
    let leads ← redirections.mapM (·.lead (substitution run))
    let refused : Act Unit := do
      Act.setStatus 2
      check tested
    withLeads run leads refused (run tested c)
  | .choice condition yes no => do
    run true condition
    if (← get).status = 0 then run tested yes
    else orNothing run tested no
  | .loop wanted condition body => runLoop run tested wanted condition body
  | .each name words body => do
    let words ← words.flatMapM (fieldsOf (substitution run))
    if words.isEmpty then Act.setStatus 0
    else asLoop (runEach run tested name body words)
  | .branch subject branches => do
    let text ← textOfWord (substitution run) subject
    runBranch run tested text.toList branches
  | .definition name body =>
    modify fun s =>
      { s with functions := (name, body) :: s.functions.filter (·.1 ≠ name), status := 0 }

def depthLimit : Nat := 20000

/-- Runs a command, nested at most as deep as `fuel` says. -/
def run : Nat → Runner
  | 0 => fun _ _ => Act.fail "too deep"
  | fuel + 1 => step (run fuel)

end FpgaProject.Shell
