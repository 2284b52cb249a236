import FpgaProject.Proofs.Path.Pieces
import FpgaProject.Script.Design

/-!
What the script that makes a project tells about it.

An account is what a script of creation says, without the words around it. Each design that can be
created has one, `Design.account?`, read off the design and the disk without a script, and the
script of creation is the one that the account gives, `Account.commands`: that is
`creation_eq_commands`. So what can be found out from a script is what can be found out from
`Account.commands`.
-/

namespace FpgaProject

open Script

namespace Design

/-- A constraint as it is told: the absolute text of the file, the entity to which it is confined,
and where it is used. -/
structure ConstraintAccount where
  file : String
  reference : Option String
  usage : Usage
deriving DecidableEq, Repr

/-- What is told of a project: names and texts as they stand in the script, the sources with the
library of each module that has some, the generics with their values as they are written. -/
structure Account where
  name : String
  folder : String
  part : String
  top : String
  sources : List (String × List String)
  blockDesign : Option String
  generics : List (String × String)
  constraints : List ConstraintAccount
deriving DecidableEq, Repr

/-- The text of the absolute form of a path, if it has one. -/
def tclText? (d : Disk) (p : Path) : Option String :=
  (p.absolute? d.cwdPath).map Path.tclText

def sourceAccount? (d : Disk) (m : Module) : Option (String × List String) :=
  ((m.synthesisFiles d).mapM (tclText? d)).map fun files => (m.library, files)

def constraintAccount? (d : Disk) (c : Constraint) : Option ConstraintAccount :=
  (tclText? d c.file).map fun file => ⟨file, c.reference, c.usage⟩

/-- What is told of a design in a folder, if all its paths have absolute forms. Modules without
sources are left out. -/
def account? (x : Design) (d : Disk) (folder : Path) : Option Account := do
  let sources ← x.modules.mapM (sourceAccount? d)
  let blockDesign ← x.blockDesign.mapM (tclText? d)
  let constraints ← (x.constraintsFor folder).mapM (constraintAccount? d)
  some {
    name := x.name
    folder := folder.tclText
    part := x.part
    top := x.top
    sources := sources.filter fun s => s.2 ≠ []
    blockDesign := blockDesign
    generics := x.generics.bindings.map fun b => (b.1, b.2.rendered)
    constraints := constraints }

/-! ### The script of an account -/

/-- The stage in which something with a usage is left out. -/
def leftOut? : Usage → Option Stage
  | .all => none
  | .synthesis => some .implementation
  | .implementation => some .synthesis

def ConstraintAccount.commands (c : ConstraintAccount) : List Command :=
  .readConstraint c.reference c.file ::
    (leftOut? c.usage).toList.map fun stage => .leaveOut stage c.file

def bindingsText (bs : List (String × String)) : String :=
  " ".intercalate (bs.map fun b => b.1 ++ "=" ++ b.2)

namespace Account

def sourceCommands (a : Account) : List Command :=
  a.sources.map fun s => .readSources s.1 s.2

def blockDesignCommands (a : Account) : List Command :=
  a.blockDesign.toList.map .source

def genericCommands (a : Account) : List Command :=
  if a.generics = [] then [] else [.setGenerics (bindingsText a.generics)]

def constraintCommands (a : Account) : List Command :=
  a.constraints.flatMap ConstraintAccount.commands

/-- The groups of commands that blank lines part. -/
def groups (a : Account) : List (List Command) :=
  [[.createProject a.name a.folder a.part, .setLanguage], a.sourceCommands, a.blockDesignCommands,
    a.genericCommands, a.constraintCommands, [.setTop a.top, .reorderFiles], [.exit]]

/-- The script that an account gives. -/
def commands (a : Account) : List Command :=
  [Command.blank].intercalate a.groups

end Account

/-! ### Accounts and scripts of creation -/

section

variable {α β γ ε : Type} {e : ε}

/-- What may be there as a result, with a fixed error if it is not. -/
def orError (e : ε) (o : Option α) : Except ε α :=
  o.elim (.error e) .ok

/-- Steps that fail with a fixed error fail with it together. -/
theorem mapM_orError {f : α → Except ε γ} {g : α → Option β} {h : β → γ}
    (each : ∀ a, f a = orError e ((g a).map h)) (xs : List α) :
    xs.mapM f = orError e ((xs.mapM g).map (List.map h)) := by
  induction xs with
  | nil => rfl
  | cons x xs ih =>
    rw [List.mapM_cons, List.mapM_cons, ih, each x]
    cases g x with
    | none => rfl
    | some b => cases xs.mapM g <;> rfl

/-- Steps that all succeed give their results in order. -/
theorem map_eq_map_some_of_mapM {f : α → Option β} {xs : List α} {ys : List β}
    (all : xs.mapM f = some ys) : xs.map f = ys.map some := by
  induction xs generalizing ys with
  | nil =>
    obtain rfl := Option.some.inj all
    rfl
  | cons x xs ih =>
    simp only [List.mapM_cons, Option.bind_eq_bind, Option.bind_eq_some_iff] at all
    obtain ⟨y, hy, rest, hrest, same⟩ := all
    obtain rfl := Option.some.inj same
    rw [List.map_cons, List.map_cons, hy, ih hrest]

/-- The results of steps that all succeed are each the result of one. -/
theorem exists_of_mem_mapM {f : α → Option β} {xs : List α} {ys : List β}
    (all : xs.mapM f = some ys) : ∀ y ∈ ys, ∃ x ∈ xs, f x = some y := by
  intro y member
  have made : some y ∈ xs.map f := map_eq_map_some_of_mapM all ▸ List.mem_map_of_mem member
  exact List.mem_map.mp made

/-- Steps that are known to succeed give what is known of each. -/
theorem mapM_map_eq_some_map {f : β → Option γ} {g : α → β} {h : α → γ} {xs : List α}
    (each : ∀ x ∈ xs, f (g x) = some (h x)) : (xs.map g).mapM f = some (xs.map h) := by
  induction xs with
  | nil => rfl
  | cons x xs ih =>
    rw [List.map_cons, List.mapM_cons, each x List.mem_cons_self,
      ih fun y hy => each y (List.mem_cons_of_mem _ hy)]
    rfl

/-- Steps fail together if one of them does. -/
theorem mapM_eq_none_iff {f : α → Option β} {xs : List α} :
    xs.mapM f = none ↔ ∃ x ∈ xs, f x = none := by
  induction xs with
  | nil => simp
  | cons x xs ih =>
    simp only [List.mapM_cons, List.mem_cons, exists_eq_or_imp, ← ih]
    cases f x with
    | none => simp
    | some y => cases xs.mapM f <;> simp

end

theorem absoluteText_eq (d : Disk) (p : Path) :
    absoluteText d p = orError (.fault .emptyPath) ((tclText? d p).map id) := by
  unfold absoluteText tclText?
  cases p.absolute? d.cwdPath <;> rfl

theorem absoluteText_eq_ok_iff {d : Disk} {p : Path} {file : String} :
    absoluteText d p = .ok file ↔ tclText? d p = some file := by
  rw [absoluteText_eq]
  cases tclText? d p <;> simp [orError]

theorem sourceCommands_eq (d : Disk) (m : Module) :
    sourceCommands d m = orError (.fault .emptyPath) ((sourceAccount? d m).map
      fun s => if s.2 = [] then [] else [.readSources s.1 s.2]) := by
  unfold sourceCommands sourceAccount?
  rw [mapM_orError (absoluteText_eq d)]
  cases (m.synthesisFiles d).mapM (tclText? d) with
  | none => rfl
  | some files => simp [orError, bind, Except.bind]

theorem constraintCommands_eq (d : Disk) (c : Constraint) :
    constraintCommands d c = orError (.fault .emptyPath) ((constraintAccount? d c).map
      ConstraintAccount.commands) := by
  obtain ⟨file, reference, usage⟩ := c
  unfold constraintCommands constraintAccount?
  rw [absoluteText_eq]
  cases tclText? d file with
  | none => rfl
  | some text => cases usage <;> rfl

theorem flatten_sourceCommands (sources : List (String × List String)) :
    (sources.map fun s => if s.2 = [] then [] else [Command.readSources s.1 s.2]).flatten =
      (sources.filter fun s => s.2 ≠ []).map fun s => .readSources s.1 s.2 := by
  induction sources with
  | nil => rfl
  | cons s sources ih =>
    by_cases empty : s.2 = []
    · simpa [empty] using ih
    · simpa [empty] using ih

theorem genericCommands_eq (x : Design) :
    x.genericCommands =
      if (x.generics.bindings.map fun b => (b.1, b.2.rendered)) = [] then []
      else [.setGenerics (bindingsText (x.generics.bindings.map fun b => (b.1, b.2.rendered)))] := by
  unfold genericCommands Generics.isEmpty Generics.tclList bindingsText
  cases x.generics.bindings with
  | nil => rfl
  | cons b bs => simp [Function.comp_def]

theorem blockDesignCommands_eq (x : Design) (d : Disk) :
    x.blockDesignCommands d = orError (.fault .emptyPath)
      ((x.blockDesign.mapM (tclText? d)).map fun file => file.toList.map .source) := by
  unfold blockDesignCommands
  cases x.blockDesign with
  | none => rfl
  | some file =>
    simp only [absoluteText_eq, Option.mapM_some]
    cases tclText? d file <;> rfl

/-- The script of creation is the one that the account gives; there is none without an account. -/
theorem creation_eq_commands (x : Design) (d : Disk) (folder : Path) :
    x.creation d folder =
      orError (.fault .emptyPath) ((x.account? d folder).map Account.commands) := by
  unfold creation account?
  rw [mapM_orError (sourceCommands_eq d), mapM_orError (constraintCommands_eq d),
    blockDesignCommands_eq, genericCommands_eq]
  cases x.modules.mapM (sourceAccount? d) with
  | none => rfl
  | some sources =>
    cases x.blockDesign.mapM (tclText? d) with
    | none => rfl
    | some blockDesign =>
      cases (x.constraintsFor folder).mapM (constraintAccount? d) with
      | none => rfl
      | some constraints =>
        simp only [orError, Option.map_some, Option.elim_some, bind, Except.bind, Option.bind]
        rw [flatten_sourceCommands, ← List.flatMap_def]
        simp [Account.commands, Account.groups, List.intercalate_cons_cons, Account.sourceCommands,
          Account.blockDesignCommands, Account.genericCommands, Account.constraintCommands]

/-- Each script of creation is the one of an account. -/
theorem exists_account_of_creation {x : Design} {d : Disk} {folder : Path}
    {commands : List Command} (made : x.creation d folder = .ok commands) :
    ∃ a, x.account? d folder = some a ∧ a.commands = commands := by
  rw [creation_eq_commands] at made
  cases told : x.account? d folder with
  | none => simp [told, orError] at made
  | some a => exact ⟨a, rfl, by simpa [told, orError] using made⟩

/-- In an account, each library has sources. -/
theorem sources_of_account {x : Design} {d : Disk} {folder : Path} {a : Account}
    (told : x.account? d folder = some a) : ∀ s ∈ a.sources, s.2 ≠ [] := by
  simp only [account?, Option.bind_eq_bind, Option.bind_eq_some_iff] at told
  obtain ⟨sources, -, blockDesign, -, constraints, -, same⟩ := told
  obtain rfl := Option.some.inj same
  intro s hs
  simpa using (List.mem_filter.mp hs).2

theorem folder_of_account {x : Design} {d : Disk} {folder : Path} {a : Account}
    (told : x.account? d folder = some a) : a.folder = folder.tclText := by
  simp only [account?, Option.bind_eq_bind, Option.bind_eq_some_iff] at told
  obtain ⟨sources, -, blockDesign, -, constraints, -, same⟩ := told
  rw [← Option.some.inj same]

/-- In an account, each constraint is told. -/
theorem constraints_of_account {x : Design} {d : Disk} {folder : Path} {a : Account}
    (told : x.account? d folder = some a) :
    (x.constraintsFor folder).mapM (constraintAccount? d) = some a.constraints := by
  simp only [account?, Option.bind_eq_bind, Option.bind_eq_some_iff] at told
  obtain ⟨sources, -, blockDesign, -, constraints, known, same⟩ := told
  obtain rfl := Option.some.inj same
  exact known

/-! ### Designs that have no account -/

/-- A path of the design that a script of creation needs is empty. -/
def HasEmptyPath (x : Design) : Prop :=
  (∃ file ∈ x.blockDesign, file.text = "") ∨ (∃ file ∈ x.clockCrossings, file.text = "") ∨
    ∃ c ∈ x.constraints ++ x.entityConstraints, c.file.text = ""

theorem tclText?_eq_none_iff {d : Disk} {p : Path} : tclText? d p = none ↔ p.text = "" := by
  rw [tclText?, Option.map_eq_none_iff, Path.absolute?_eq_none_iff]

/-- An empty path names no file. -/
theorem text_ne_of_isFile {d : Disk} {p : Path} (file : d.isFile p = true) : p.text ≠ "" := by
  intro empty
  simp [Disk.isFile, Disk.locate, Disk.textFault?, Path.chars, empty] at file

/-- What is told of the sources of a module is always there, as they are files. -/
theorem sourceAccount?_ne_none (d : Disk) (m : Module) : sourceAccount? d m ≠ none := by
  intro none
  rw [sourceAccount?, Option.map_eq_none_iff, mapM_eq_none_iff] at none
  obtain ⟨file, member, untold⟩ := none
  have source := (List.mem_filter.mp member).2
  rw [Bool.and_eq_true] at source
  exact text_ne_of_isFile source.1 (tclText?_eq_none_iff.mp untold)

/-- A design has no account exactly if one of its paths is empty. -/
theorem account?_eq_none_iff {x : Design} {d : Disk} {folder : Path} :
    x.account? d folder = none ↔ x.HasEmptyPath := by
  have sources : x.modules.mapM (sourceAccount? d) ≠ none := by
    intro none
    obtain ⟨m, -, untold⟩ := mapM_eq_none_iff.mp none
    exact sourceAccount?_ne_none d m untold
  have bundled : (folder.child crossingsFile).text ≠ "" := Path.text_child_ne (by decide) folder
  have crossings : (x.clockCrossings.getD (folder.child crossingsFile)).text = "" ↔
      ∃ file ∈ x.clockCrossings, file.text = "" := by
    cases x.clockCrossings with
    | none => simp [bundled]
    | some file => simp
  have blockDesign : x.blockDesign.mapM (tclText? d) = none ↔
      ∃ file ∈ x.blockDesign, file.text = "" := by
    cases x.blockDesign with
    | none => simp
    | some file => simp [tclText?_eq_none_iff]
  have constraints : (x.constraintsFor folder).mapM (constraintAccount? d) = none ↔
      (∃ file ∈ x.clockCrossings, file.text = "") ∨
        ∃ c ∈ x.constraints ++ x.entityConstraints, c.file.text = "" := by
    rw [mapM_eq_none_iff, ← crossings]
    simp only [constraintAccount?, Option.map_eq_none_iff, tclText?_eq_none_iff, constraintsFor,
      List.mem_append, List.mem_cons, Constraint.ofFile, or_and_right, exists_or, exists_eq_left]
    exact or_left_comm
  rw [HasEmptyPath, ← blockDesign, ← constraints]
  simp only [account?, Option.bind_eq_bind]
  cases told : x.modules.mapM (sourceAccount? d) with
  | none => exact absurd told sources
  | some _ =>
    cases x.blockDesign.mapM (tclText? d) with
    | none => simp
    | some _ => cases (x.constraintsFor folder).mapM (constraintAccount? d) <;> simp

/-- A script of creation cannot be made exactly if a path of the design is empty. -/
theorem creation_eq_error_iff {x : Design} {d : Disk} {folder : Path} {e : Error} :
    x.creation d folder = .error e ↔ x.HasEmptyPath ∧ e = .fault .emptyPath := by
  rw [creation_eq_commands, ← @account?_eq_none_iff x d folder]
  cases x.account? d folder with
  | none => simp [orError, eq_comm]
  | some a => simp [orError]

/-! ### A sample -/

/-- A design with a block design, generics and a confined constraint, and texts that look like parts
of the commands. -/
def sample : Design :=
  ⟨"p", [], "-part", "p_top", some ⟨"./bd.tcl"⟩,
    ⟨[("g", .text "\x7b=\x7d"), ("", .boolean true)], by decide⟩,
    [⟨⟨"/c.xdc"⟩, some "-unmanaged", .synthesis⟩], none, []⟩

def sampleAccount : Account where
  name := "p"
  folder := "/work/out"
  part := "-part"
  top := "p_top"
  sources := []
  blockDesign := some "/work/bd.tcl"
  generics := [("g", "\x7b=\x7d"), ("", "1'b1")]
  constraints := [⟨"/c.xdc", some "-unmanaged", .synthesis⟩,
    ⟨"/work/out/constrain_clock_crossings.tcl", none, .all⟩]

theorem account?_sample :
    sample.account? (.empty ["work"]) ⟨"/work/out"⟩ = some sampleAccount := by
  decide +kernel

end Design

end FpgaProject
