import FpgaProject.Error

/-!
What a computation reports on the way, and what comes of it.

Events are said in order. A computation that fails keeps what it has said, and nothing after the
failure is said.
-/

namespace FpgaProject

/-- How grave an event is, from the gravest on. -/
inductive Level where
  | error
  | warn
  | info
  | debug
  | trace
deriving DecidableEq, Repr

/-- The rank of a level: the gravest has the least. -/
def Level.rank : Level → Nat
  | .error => 1
  | .warn => 2
  | .info => 3
  | .debug => 4
  | .trace => 5

inductive Topic where
  | discovery
  | specialization
  | project
  | configuration
  | running
deriving DecidableEq, Repr

/-- The name under which the events of a topic are filtered. -/
def Topic.name : Topic → String
  | .discovery => "vproj::core::registry"
  | .specialization => "vproj::core::specialization"
  | .project => "vproj::core::project"
  | .configuration => "vproj::core::config"
  | .running => "vproj::core::runner"

inductive Event where
  | duplicateModule (name : String) (dir : Path)
  | usingFactory (name : String)
  | loadingSpecialization (file : Path)
  | discovered (count : Nat)
  | benchAdded (modul config bench : String)
  | constraintsRead (project : String) (user entity : Nat)
  | wrote (script : Path)
  | selected (project : String) (file : Path)
  | running (tool : String) (dir : Path)
deriving DecidableEq, Repr

namespace Event

def level : Event → Level
  | .duplicateModule .. => .warn
  | .usingFactory _ | .loadingSpecialization _ => .trace
  | _ => .debug

def topic : Event → Topic
  | .duplicateModule .. | .usingFactory _ | .loadingSpecialization _ | .discovered _ => .discovery
  | .benchAdded .. => .specialization
  | .constraintsRead .. | .wrote _ => .project
  | .selected .. => .configuration
  | .running .. => .running

def message : Event → String
  | .duplicateModule name dir =>
    "module " ++ Text.quoted name ++ " is defined more than once (again at " ++ dir.quoted ++ ")"
  | .usingFactory name => "using registered factory for module " ++ name
  | .loadingSpecialization file => "loading specialization " ++ file.quoted
  | .discovered count => "discovered " ++ toString count ++ " modules"
  | .benchAdded modul config bench => "module " ++ modul ++ " adds config " ++ config ++
      " to " ++ bench
  | .constraintsRead project user entity =>
    "project " ++ project ++ " reads " ++ toString user ++ " user and " ++ toString entity ++
      " entity constraints"
  | .wrote script => "wrote " ++ script.quoted
  | .selected project file => "selected project " ++ project ++ " from " ++ file.quoted
  | .running tool dir => "running " ++ tool ++ " from " ++ dir.quoted

end Event

/-- What was said, and what came of it. -/
structure Report (α : Type) where
  events : List Event
  result : Except Error α

namespace Report

variable {α β : Type}

instance : Monad Report where
  pure a := ⟨[], .ok a⟩
  bind r f :=
    match r.result with
    | .error e => ⟨r.events, .error e⟩
    | .ok a => ⟨r.events ++ (f a).events, (f a).result⟩

def say (e : Event) : Report Unit :=
  ⟨[e], .ok ()⟩

def fail (e : Error) : Report α :=
  ⟨[], .error e⟩

def ofExcept (r : Except Error α) : Report α :=
  ⟨[], r⟩

def after (events : List Event) (r : Report α) : Report α :=
  ⟨events ++ r.events, r.result⟩

/-! ### What is said and what comes of it -/

@[simp] theorem events_pure (a : α) : (pure a : Report α).events = [] := rfl

@[simp] theorem result_pure (a : α) : (pure a : Report α).result = .ok a := rfl

theorem bind_of_ok {r : Report α} {a : α} (h : r.result = .ok a) (f : α → Report β) :
    r >>= f = ⟨r.events ++ (f a).events, (f a).result⟩ := by
  show Bind.bind r f = _
  simp only [Bind.bind]
  rw [h]

theorem bind_of_error {r : Report α} {e : Error} (h : r.result = .error e) (f : α → Report β) :
    r >>= f = ⟨r.events, .error e⟩ := by
  show Bind.bind r f = _
  simp only [Bind.bind]
  rw [h]

end Report

end FpgaProject
