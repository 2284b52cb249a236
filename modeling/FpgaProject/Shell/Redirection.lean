import FpgaProject.Shell.Apart

/-!
Leading channels to files.

The words of all redirections of a command are expanded first; then the channels are led where they
say, one after another. When the command is done, the channels lead where they led before.
-/

namespace FpgaProject.Shell

/-- Where a channel is led, when what is written there is known. -/
inductive Lead where
  | file (way : Leading) (name : String)
  | text (s : String)
  | share (other : Nat)
  | nowhere
deriving DecidableEq, Repr

def Redirection.lead (output : Command → Act String) : Redirection → Act (Nat × Lead)
  | .word channel way w => do
    let text ← textOfWord output w
    match way, text.toList with
    | .output, ['-'] | .input, ['-'] => pure (channel, .nowhere)
    | .output, [c] | .input, [c] =>
      if c.isDigit then pure (channel, .share (c.toNat - '0'.toNat))
      else Act.fail "Syntax error: Bad fd number"
    | .output, _ | .input, _ => Act.fail "Syntax error: Bad fd number"
    | way, _ => pure (channel, .file way text)
  | .text channel document => do
    let w := ((← get).documents.lookup document).getD []
    pure (channel, .text (← textOfWord output w))

namespace Lead

def openFault (creating : Bool) (name : String) (f : Fault) : String :=
  let reason := match f with
    | .notFound | .notDirectory => if creating then "Directory nonexistent" else "No such file"
    | f => f.reason
  "cannot " ++ (if creating then "create " else "open ") ++ name ++ ": " ++ reason

/-- Opens a file, which is made or emptied if it is opened for writing. -/
def openFile (way : Leading) (name : String) (s : State) : Except Fault (State × OpenFile) := do
  let isThere := match entryOf? s.disk name with
    | some (.file ..) => true
    | _ => false
  let disk ←
    if way = .read || (isThere && (way = .append || isPipe s.disk name)) then pure s.disk
    else match s.disk.writeText (pathOf name) "" with
      | (d, .ok ()) => pure d
      | (_, .error f) => throw f
  let l ← disk.locate (pathOf name)
  let s := { s with disk := disk }
  match disk.entryAt? l with
  | some (.file c x) =>
    -- What is read from a pipe is no longer in it.
    if way = .read && isPipe disk name then
      .ok ({ s with disk := disk.put l (.file (contentsOf "") x) }, ⟨.text (contentOctets c), 0, false⟩)
    else .ok (s, ⟨.file l, 0, way = .append || isPipe disk name⟩)
  | _ => .ok (s, ⟨.void, 0, false⟩)

/-- Leads a channel somewhere. Whoever reads from a pipe waits for those who write to it. -/
def carryOut (run : Runner) (channel : Nat) : Lead → Act Unit
  | .nowhere => modify (·.leadTo channel none)
  | .text t => modify (·.lead channel ⟨.text t, 0, false⟩)
  | .share other => do
    match (← get).channels.lookup other with
    | some k => modify (·.leadTo channel (some k))
    | none => Act.fail (toString other ++ ": Bad file descriptor")
  | .file way name => do
    if way = .read && isPipe (← get).disk name then runJobs run fun _ => true
    if name = "/dev/null" then modify (·.lead channel ⟨.void, 0, false⟩)
    else
      match openFile way name (← get) with
      | .ok (s, f) => set (s.lead channel f)
      | .error f => Act.fail (openFault (way ≠ .read) name f)

end Lead

/-- Does something with channels that are led somewhere, and leads them back; something else if they
cannot be led there. -/
def withLeads (run : Runner) (leads : List (Nat × Lead)) (refused act : Act Unit) : Act Unit := do
  let before := (← get).channels
  let isLed (c : Nat × Nat) : Bool := leads.any fun l => l.1 = c.1
  let back : Act Unit := modify fun t =>
    { t with channels := before.filter isLed ++ t.channels.filter (!isLed ·) }
  match ← Act.caught (leads.forM fun (channel, l) => l.carryOut run channel) with
  | .ok () => if leads.isEmpty then act else Act.followedBy act back
  | .error .error => do
    back
    refused
  | .error e => throw e

end FpgaProject.Shell
