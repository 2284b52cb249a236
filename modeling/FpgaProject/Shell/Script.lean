import FpgaProject.Shell.Word

/-!
Reading shell scripts.

A script is read command by command; a command goes to the end of its line, or further if something
in it is still open. Some words are keywords where a command may start and words elsewhere, so a
reader says of each token what it may be.
-/

namespace FpgaProject.Shell

namespace Reading

/-! ### Tokens -/

/-- The words that are keywords where a command may start. -/
def keywords : List String :=
  ["!", "case", "do", "done", "elif", "else", "esac", "fi", "for", "if", "in", "then", "until",
    "while", "\x7b", "\x7d"]

/-- Takes the text of a document up to its mark, line by line. A line that is joined to the one
before it is no mark. -/
def documentText (a : AwaitedDocument) : Reading (List Char) :=
  loop (([], false) : List (List Char) × Bool) fun (lines, joined) => do
    let rest := (← get).rest
    if rest = [] then pure (.inr lines.reverse.flatten)
    else
      let raw := rest.takeWhile (· ≠ '\n')
      let text := if a.withoutTabs then raw.dropWhile (· = '\t') else raw
      modify fun s =>
        { s with
          rest := s.rest.drop (raw.length + 1)
          line := if raw.length < rest.length then s.line + 1 else s.line }
      if text = a.mark && !joined then pure (.inr lines.reverse.flatten)
      else
        let ended := if raw.length < rest.length then ['\n'] else []
        let slashes := (raw.reverse.takeWhile (· = '\\')).length
        pure (.inl ((text ++ ended) :: lines, !a.literal && slashes % 2 = 1))

/-- Reads a part of another text, whose first line has a given number. -/
def aside {α : Type} (text : List Char) (line : Nat) (r : Reading α) : Reading α := do
  let s ← get
  set { s with rest := text, line := line, kept := none, awaited := [] }
  let a ← r
  modify fun t => { s with asked := t.asked, documents := t.documents }
  pure a

def takeDocuments (word : Stretch → Reading Word) : Reading Unit := do
  let awaited := (← get).awaited
  modify ({ · with awaited := [] })
  for a in awaited do
    let line := (← get).line
    let text ← documentText a
    let w ← if a.literal then pure [Piece.quoted text] else aside text line (word .document)
    modify fun s => { s with documents := s.documents ++ [(a.number, w)] }

/-- The rest of a sign that leads a channel somewhere. -/
def opening (c : Char) : Reading Opening := do
  skip
  if c = '>' then
    if ← accept '>' then pure (.leading .append)
    else if ← accept '&' then pure (.leading .output)
    else pure (.leading .write)
  else if ← accept '<' then do pure (.document (← accept '-'))
  else if ← accept '&' then pure (.leading .input)
  else pure (.leading .read)

def signOf (c : Char) (double : Bool) : Reading Token := do
  skip
  if double then
    if ← accept c then return .sign (String.ofList [c, c])
  pure (.sign (String.singleton c))

/-- The next token. A digit in front of a sign that leads a channel somewhere names the channel. -/
def token (word : Stretch → Reading Word) (m : Stretch) : Reading Token :=
  loop () fun _ => do
    match ← peek? with
    | none => pure (.inr .fin)
    | some c =>
      if c = ' ' || c = '\t' then
        skip
        pure (.inl ())
      else if c = '#' then
        modify fun s => { s with rest := s.rest.dropWhile (· ≠ '\n') }
        pure (.inl ())
      else if c = '\n' then
        skip
        takeDocuments word
        pure (.inr .newline)
      else if c = '&' || c = '|' || c = ';' then do pure (.inr (← signOf c true))
      else if c = '(' || c = ')' then do pure (.inr (← signOf c false))
      else if c = '<' || c = '>' then do pure (.inr (.redirection none (← opening c)))
      else
        let w ← word m
        match w, ← peek? with
        | [.plain [d]], some c =>
          if d.isDigit && (c = '<' || c = '>') then
            pure (.inr (.redirection (some (d.toNat - '0'.toNat)) (← opening c)))
          else pure (.inr (.word w))
        | _, _ => pure (.inr (.word w))

def keep (t : Token) : Reading Unit :=
  modify ({ · with kept := some t })

/-- The next token or the one that has been put back. Ends of lines are passed over if `lines` is
set, and words may be keywords if `commands` is set. -/
def next (word : Stretch → Reading Word) (lines commands : Bool) : Reading Token := do
  let first ← match (← get).kept with
    | some t => do
      modify ({ · with kept := none })
      pure t
    | none => token word (.bare false)
  loop first fun t => do
    match t with
    | .newline =>
      if lines then do pure (.inl (← token word (.bare false))) else pure (.inr t)
    | .word [.plain s] =>
      let name := String.ofList s
      if commands && keywords.contains name then pure (.inr (.keyword name)) else pure (.inr t)
    | t => pure (.inr t)

/-- Complains about a token where another one, if it is given, should stand. -/
def unexpected {α : Type} (t : Token) (wanted : Option Token := none) : Reading α :=
  fail (t.label ++ " unexpected" ++
    (wanted.map fun w => " (expecting " ++ w.label ++ ")").getD "")

def keyword (word : Stretch → Reading Word) (name : String) (lines : Bool := false) :
    Reading Unit := do
  match ← next word lines true with
  | .keyword found =>
    if found ≠ name then unexpected (.keyword found) (some (.keyword name))
  | t => unexpected t (some (.keyword name))

/-! ### Commands -/

def markText (w : Word) : List Char :=
  w.flatMap fun
    | .plain s | .quoted s => s
    | _ => []

def hasQuotes (w : Word) : Bool :=
  w.any fun
    | .quoted _ => true
    | _ => false

def redirection (word : Stretch → Reading Word) (channel : Option Nat) (o : Opening) :
    Reading Redirection := do
  match o with
  | .leading way =>
    let usual := match way with
      | .write | .append | .output => 1
      | .read | .input => 0
    match ← next word false false with
    | .word w => pure (.word (channel.getD usual) way w)
    | t => unexpected t
  | .document withoutTabs =>
    match ← token word .mark with
    | .word w => do
      let number := (← get).asked
      let awaited : AwaitedDocument := ⟨number, markText w, withoutTabs, hasQuotes w⟩
      modify fun s => { s with asked := number + 1, awaited := s.awaited ++ [awaited] }
      pure (.text (channel.getD 0) number)
    | t => unexpected t

/-- The variable to which a word assigns a value, with the value. -/
def assignment? : Word → Option (String × Word)
  | .plain s :: pieces =>
    let name := s.takeWhile isNameChar
    match s.drop name.length with
    | '=' :: value =>
      if isName (String.ofList name) then
        some (String.ofList name, if value = [] then pieces else .plain value :: pieces)
      else none
    | _ => none
  | _ => none

def fixedCommands : List String :=
  [".", ":", "break", "continue", "eval", "exec", "exit", "export", "local", "return", "set",
    "shift", "trap", "unset"]

/-- What has been read of a command that is made of words. -/
structure Parts where
  assignments : List (String × Word) := []
  words : List Word := []
  redirections : List Redirection := []

def functionName? : Word → Option String
  | [.plain s] =>
    let name := String.ofList s
    if isName name && !fixedCommands.contains name then some name else none
  | _ => none

/-- A command that is made of words, or the definition of a function; `command` reads its body. -/
def simple (word : Stretch → Reading Word) (command : Reading Command) : Reading Command := do
  let line := (← get).line
  loop ({} : Parts) fun p => do
    match ← next word false false with
    | .word w =>
      match p.words, assignment? w with
      | [], some a => pure (.inl { p with assignments := p.assignments ++ [a] })
      | _, _ => pure (.inl { p with words := p.words ++ [w] })
    | .redirection channel o => do
      let r ← redirection word channel o
      pure (.inl { p with redirections := p.redirections ++ [r] })
    | t =>
      match t, p with
      | .sign "(", { assignments := [], words := [w], redirections := [] } => do
        match ← next word false false with
        | .sign ")" => pure ()
        | t => unexpected t (some (.sign ")"))
        match functionName? w with
        | some name => do
          keep (← next word true true)
          pure (.inr (.definition name (← command)))
        | none => fail "Bad function name"
      | _, _ => do
        keep t
        pure (.inr (.simple line p.assignments p.words p.redirections))

/-- The redirections behind a command, which end in front of a token that may be a keyword. -/
def redirections (word : Stretch → Reading Word) : Reading (List Redirection) :=
  loop ([] : List Redirection) fun taken => do
    match ← next word false true with
    | .redirection channel o => do
      let r ← redirection word channel o
      pure (.inl (taken ++ [r]))
    | t => do
      keep t
      pure (.inr taken)

/-- How commands one after another are read: those of a line, those within a command, of which there
is at least one, or those of a branch, of which there may be none. -/
inductive Extent where
  | line
  | body
  | branch
deriving DecidableEq, Repr

/-- What follows a condition, up to the end of the choice. -/
def consequences (word : Stretch → Reading Word) (list : Extent → Reading Command) :
    Nat → Reading Command
  | 0 => fail "too deep"
  | fuel + 1 => do
    let condition ← list .body
    keyword word "then"
    let yes ← list .body
    match ← next word false true with
    | .keyword "elif" => do pure (.choice condition yes (← consequences word list fuel))
    | .keyword "else" => do
      let no ← list .body
      keyword word "fi"
      pure (.choice condition yes no)
    | .keyword "fi" => pure (.choice condition yes .nothing)
    | t => unexpected t (some (.keyword "fi"))

def loopWords (word : Stretch → Reading Word) : Reading (List Word) :=
  loop ([] : List Word) fun taken => do
    match ← next word false false with
    | .word w => pure (.inl (taken ++ [w]))
    | .newline | .sign ";" => pure (.inr taken)
    | t => unexpected t

def each (word : Stretch → Reading Word) (list : Extent → Reading Command) : Reading Command := do
  let name ← match ← next word false false with
    | .word [.plain s] =>
      if isName (String.ofList s) then pure (String.ofList s) else fail "Bad for loop variable"
    | _ => fail "Bad for loop variable"
  let words ← match ← next word true true with
    | .keyword "in" => loopWords word
    | t => do
      match t with
      | .sign ";" => pure ()
      | t => keep t
      pure [[.parameter .arguments .itself true]]
  keyword word "do" true
  let body ← list .body
  keyword word "done"
  pure (.each name words body)

/-- The patterns of a branch, up to the closing bracket; the first token has been read. -/
def patterns (word : Stretch → Reading Word) (first : Token) : Reading (List Word) :=
  loop (([], first) : List Word × Token) fun (taken, t) => do
    let w ← match t with
      | .word w => pure w
      | .keyword name => pure [Piece.plain name.toList]
      | _ => pure []
    match ← next word false false with
    | .sign "|" => do pure (.inl (taken ++ [w], ← next word false false))
    | .sign ")" => pure (.inr (taken ++ [w]))
    | t => unexpected t (some (.sign ")"))

def branches (word : Stretch → Reading Word) (list : Extent → Reading Command) :
    Reading (List (List Word × Command)) :=
  loop ([] : List (List Word × Command)) fun taken => do
    match ← next word true true with
    | .keyword "esac" => pure (.inr taken)
    | t => do
      let first ← match t with
        | .sign "(" => next word false false
        | t => pure t
      let wanted ← patterns word first
      let body ← list .branch
      let taken := taken ++ [(wanted, body)]
      match ← next word true true with
      | .keyword "esac" => pure (.inr taken)
      | .sign ";;" => pure (.inl taken)
      | t => unexpected t (some (.sign ";;"))

def withRedirections (word : Stretch → Reading Word) (c : Command) : Reading Command := do
  match ← redirections word with
  | [] => pure c
  | rs => pure (.led c rs)

def command (word : Stretch → Reading Word) (list : Extent → Reading Command) :
    Nat → Reading Command
  | 0 => fail "too deep"
  | fuel + 1 => do
    match ← next word false false with
    | .keyword "if" => do
      withRedirections word (← consequences word list ((← get).rest.length + 2))
    | .keyword "while" => do withRedirections word (← whileBody true)
    | .keyword "until" => do withRedirections word (← whileBody false)
    | .keyword "for" => do withRedirections word (← each word list)
    | .keyword "case" => do
      let subject ← match ← next word false false with
        | .word w => pure w
        | t => unexpected t (some (.word []))
      keyword word "in" true
      withRedirections word (.branch subject (← branches word list))
    | .keyword "\x7b" => do
      let body ← list .body
      keyword word "\x7d"
      withRedirections word body
    | .sign "(" => do
      let body ← list .body
      match ← next word false true with
      | .sign ")" => withRedirections word (.apart body)
      | t => unexpected t (some (.sign ")"))
    | .word w => do
      keep (.word w)
      simple word (command word list fuel)
    | .redirection channel o => do
      keep (.redirection channel o)
      simple word (command word list fuel)
    | t => unexpected t
where
  /-- The condition and the body of a loop. -/
  whileBody (wanted : Bool) : Reading Command := do
    let condition ← list .body
    keyword word "do"
    let body ← list .body
    keyword word "done"
    pure (.loop wanted condition body)

/-- Commands of which each gets what the one before it prints, and which may be negated. -/
def pipeline (word : Stretch → Reading Word) (list : Extent → Reading Command) :
    Reading Command := do
  let negated ← match ← next word false false with
    | .keyword "!" => do
      keep (← next word false true)
      pure true
    | t => do
      keep t
      pure false
  let one : Reading Command := do command word list ((← get).rest.length + 2)
  let first ← one
  let before ← loop ([first] : List Command) fun taken => do
    match ← next word false false with
    | .sign "|" => do
      keep (← next word true true)
      let c ← one
      pure (.inl (c :: taken))
    | t => do
      keep t
      pure (.inr taken)
  let c := match before with
    | [] => first
    | last :: others => others.foldl (fun c d => .pipe d c) last
  pure (if negated then .negation c else c)

/-- Commands of which each depends on how the one before it ended. -/
def dependent (word : Stretch → Reading Word) (list : Extent → Reading Command) :
    Reading Command := do
  let first ← pipeline word list
  loop first fun before => do
    match ← next word false false with
    | .sign "&&" => do
      keep (← next word true true)
      pure (.inl (.both before (← pipeline word list)))
    | .sign "||" => do
      keep (← next word true true)
      pure (.inl (.either before (← pipeline word list)))
    | t => do
      keep t
      pure (.inr before)

/-- Whether a token ends commands that stand within another one. -/
def endsList : Token → Bool
  | .fin => true
  | .sign s => s = ")" || s = ";;"
  | .keyword k => ["do", "done", "elif", "else", "esac", "fi", "then", "\x7d"].contains k
  | _ => false

/-- Commands one after another; `none` at the end of the script. -/
def listWith (word : Stretch → Reading Word) (list : Extent → Reading Command) (e : Extent) :
    Reading (Option Command) :=
  loop (none : Option Command) fun before => do
    let t ← next word (e ≠ .line) true
    match t with
    | .newline => pure (.inr (some (before.getD .nothing)))
    | .fin => do
      keep t
      pure (.inr (if e = .line then before else some (before.getD .nothing)))
    | t => do
      keep t
      if (e = .branch || (e = .body && before.isSome)) && endsList t then
        pure (.inr (some (before.getD .nothing)))
      else
        let c ← dependent word list
        let behind ← next word false false
        let c := match behind with
          | .sign "&" => .background c
          | _ => c
        let all := match before with
          | some b => .sequence b c
          | none => c
        match behind with
        | .newline | .fin => do
          keep behind
          pure (.inl (some all))
        | .sign "&" | .sign ";" => pure (.inl (some all))
        | t =>
          if e = .line then unexpected t
          else do
            keep t
            pure (.inr (some all))

/-- How words and commands that are nested at most as deep as `fuel` says are read. -/
def nested : Nat → (Stretch → Reading Word) × (Extent → Reading Command)
  | 0 => (fun _ => fail "too deep", fun _ => fail "too deep")
  | fuel + 1 =>
    let (word, list) := nested fuel
    let within : Reading Command := do
      let s ← get
      set { s with kept := none }
      let c ← list .branch
      match ← next word false true with
      | .sign ")" => do
        modify ({ · with kept := s.kept })
        pure c
      | t => unexpected t (some (.sign ")"))
    let ofText (text : List Char) : Reading Command := aside text 1 (list .branch)
    let wordHere (m : Stretch) : Reading Word := do
      stretch within ofText ((← get).rest.length + 1) m
    (wordHere, fun e => do pure ((← listWith wordHere list e).getD .nothing))

end Reading

/-- The next command of a script, with what is left of it; nothing at its end. -/
def Source.next? (s : Source) : Except Misreading (Option Command × Source) :=
  let (word, list) := Reading.nested (s.rest.length + 1)
  Reading.listWith word list .line { s with kept := none, awaited := [] }

end FpgaProject.Shell
