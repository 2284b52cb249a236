import Mathlib.Data.List.Forall2
import FpgaProject.Proofs.Script.Account
import FpgaProject.Proofs.Script.Lines

/-!
The lines of a script that start alike.

What a line is about can be told from its start. In a script of creation, the lines that start with
`read_xdc ` are those of the constraints, one each and in order (`forall₂_readLine?`), and the one
that starts with `set_property generic ` is that of the generics, if there are some
(`linesStarting_generics`). The text of the script, cut at line feeds, has the same lines
(`filter_splitAt_text`).
-/

namespace FpgaProject

namespace Script

def startsWith (front : String) (line : List Char) : Bool :=
  front.toList.isPrefixOf line

/-- The lines of a script that start with a text. -/
def linesStarting (front : String) (s : List Command) : List String :=
  (lines s).filter fun line => startsWith front line.toList

section

variable {front : String}

@[simp] theorem linesStarting_nil : linesStarting front [] = [] := rfl

@[simp] theorem linesStarting_append (s t : List Command) :
    linesStarting front (s ++ t) = linesStarting front s ++ linesStarting front t := by
  simp [linesStarting, lines_append]

/-- The lines of a script are told command by command. -/
theorem linesStarting_eq_flatMap (s : List Command) :
    linesStarting front s = s.flatMap fun c => linesStarting front [c] := by
  induction s with
  | nil => rfl
  | cons c s ih => rw [List.flatMap_cons, ← ih, ← linesStarting_append, List.singleton_append]

/-- Commands of which none has such a line have none together. -/
theorem linesStarting_eq_nil {s : List Command} (none : ∀ c ∈ s, linesStarting front [c] = []) :
    linesStarting front s = [] := by
  rw [linesStarting_eq_flatMap]
  exact List.flatMap_eq_nil_iff.mpr none

/-- The text of a script, cut at line feeds, has the same lines that start with a text, unless an
operand holds a line feed. -/
theorem filter_splitAt_text (given : front ≠ "") {s : List Command}
    (oneLine : ∀ c ∈ s, ∀ t ∈ c.operands, OneLine t) :
    (Text.splitAt '\n' (text s).toList).filter (startsWith front) =
      (linesStarting front s).map String.toList := by
  have nothing : startsWith front [] = false := by
    cases chars : front.toList with
    | nil => exact absurd (String.toList_eq_nil_iff.mp chars) given
    | cons c cs => simp [startsWith, chars]
  rw [splitAt_text oneLine, List.filter_append, List.filter_map, linesStarting]
  simp [nothing, Function.comp_def]

end

/-! ### The commands that such lines belong to -/

/-- What the lines start with that read a constraint. -/
def readFront : String := "read_xdc "

/-- What the line starts with that sets the generics. -/
def genericsFront : String := "set_property generic "

theorem linesStarting_read (c : Command) :
    linesStarting readFront [c] = match c with
      | .readConstraint .. => c.lines
      | _ => [] := by
  cases c with
  | readConstraint reference file =>
    cases reference <;> simp [linesStarting, lines, Command.lines, readFront, startsWith]
  | leaveOut stage file =>
    simp [linesStarting, lines, Command.lines, readFront, startsWith]
  | _ => simp [linesStarting, lines, Command.lines, complainIf, readFront, startsWith]

theorem linesStarting_generic (c : Command) :
    linesStarting genericsFront [c] = match c with
      | .setGenerics _ => c.lines
      | _ => [] := by
  cases c with
  | readConstraint reference file =>
    cases reference <;> simp [linesStarting, lines, Command.lines, genericsFront, startsWith]
  | leaveOut stage file =>
    cases stage <;>
      simp [linesStarting, lines, Command.lines, genericsFront, startsWith, stageProperty]
  | _ => simp [linesStarting, lines, Command.lines, complainIf, genericsFront, startsWith]

end Script

namespace Design

open Script

def ConstraintAccount.readLine (c : ConstraintAccount) : String :=
  readFront ++ (c.reference.elim "" fun reference => "-ref " ++ reference ++ " ") ++
    "-unmanaged " ++ c.file

def genericsLine (bs : List (String × String)) : String :=
  genericsFront ++ "\x7b" ++ bindingsText bs ++ "\x7d [current_fileset]"

theorem ConstraintAccount.linesStarting_read (c : ConstraintAccount) :
    linesStarting readFront c.commands = [c.readLine] := by
  have left :
      linesStarting readFront ((leftOut? c.usage).toList.map (.leaveOut · c.file)) = [] := by
    refine linesStarting_eq_nil fun command member => ?_
    obtain ⟨stage, -, rfl⟩ := List.mem_map.mp member
    exact Script.linesStarting_read _
  rw [ConstraintAccount.commands, ← List.singleton_append, linesStarting_append, left,
    Script.linesStarting_read, List.append_nil, readLine]
  cases c.reference <;>
    simp [Command.lines, readFront, ← String.toList_inj]

/-- If only commands that set generics or read constraints have such lines, these are what the
script of an account has: those of the generics, then those of the constraints. -/
theorem linesStarting_commands {front : String}
    (silent : ∀ c : Command, (∀ bs, c ≠ .setGenerics bs) → (∀ r file, c ≠ .readConstraint r file) →
      linesStarting front [c] = [])
    (a : Account) : linesStarting front a.commands =
      linesStarting front a.genericCommands ++ linesStarting front a.constraintCommands := by
  have blank : linesStarting front [.blank] = [] := silent _ (by simp) (by simp)
  have ends : linesStarting front [.createProject a.name a.folder a.part, .setLanguage] = [] ∧
      linesStarting front [.setTop a.top, .reorderFiles] = [] ∧
      linesStarting front [.exit] = [] := by
    refine ⟨linesStarting_eq_nil ?_, linesStarting_eq_nil ?_, linesStarting_eq_nil ?_⟩
    all_goals simp [silent]
  have sources : linesStarting front a.sourceCommands = [] := by
    refine linesStarting_eq_nil fun command member => ?_
    obtain ⟨source, -, rfl⟩ := List.mem_map.mp member
    exact silent _ (by simp) (by simp)
  have blockDesign : linesStarting front a.blockDesignCommands = [] := by
    refine linesStarting_eq_nil fun command member => ?_
    obtain ⟨file, -, rfl⟩ := List.mem_map.mp member
    exact silent _ (by simp) (by simp)
  have groups : linesStarting front a.commands = a.groups.flatMap (linesStarting front) := by
    unfold Account.commands
    induction a.groups with
    | nil => rfl
    | cons group groups ih =>
      cases groups with
      | nil => simp
      | cons next groups =>
        rw [List.intercalate_cons_cons, linesStarting_append, linesStarting_append, blank, ih]
        simp
  rw [groups]
  simp [Account.groups, ends, sources, blockDesign]

variable (a : Account)

/-- Each constraint of an account has one line that reads it, and no other line starts alike. -/
theorem linesStarting_reads :
    linesStarting readFront a.commands = a.constraints.map ConstraintAccount.readLine := by
  have generics : linesStarting readFront a.genericCommands = [] := by
    unfold Account.genericCommands
    split
    · rfl
    · exact Script.linesStarting_read _
  rw [linesStarting_commands, generics, List.nil_append, Account.constraintCommands,
    linesStarting_eq_flatMap, List.flatMap_assoc, List.map_eq_flatMap]
  · refine List.flatMap_congr fun c _ => ?_
    rw [← linesStarting_eq_flatMap, c.linesStarting_read]
  · intro c _ notRead
    rw [Script.linesStarting_read]
    split
    · exact absurd rfl (notRead _ _)
    · rfl

/-- The generics of an account have one line that sets them, if there are some, and no other line
starts alike. -/
theorem linesStarting_generics :
    linesStarting genericsFront a.commands =
      if a.generics = [] then [] else [genericsLine a.generics] := by
  have constraints : linesStarting genericsFront a.constraintCommands = [] := by
    refine linesStarting_eq_nil fun command member => ?_
    obtain ⟨c, -, said⟩ := List.mem_flatMap.mp member
    rw [ConstraintAccount.commands, List.mem_cons, List.mem_map] at said
    rcases said with rfl | ⟨stage, -, rfl⟩
    · exact Script.linesStarting_generic _
    · exact Script.linesStarting_generic _
  rw [linesStarting_commands, constraints, List.append_nil, Account.genericCommands]
  · split
    · rfl
    · rw [Script.linesStarting_generic]
      simp [Command.lines, genericsLine, genericsFront]
  · intro c notGenerics _
    rw [Script.linesStarting_generic]
    split
    · exact absurd rfl (notGenerics _)
    · rfl

/-! ### Lines of designs -/

/-- The line that reads a constraint, looked at from a directory; nothing if its path is empty. -/
def readLine? (cwd : Path) (c : Constraint) : Option String :=
  (c.file.absolute? cwd).map fun file =>
    ConstraintAccount.readLine ⟨file.tclText, c.reference, c.usage⟩

/-- In a script of creation, the lines that read constraints are those of all constraints of the
design, in order. Of the disk, only the working directory counts. -/
theorem forall₂_readLine? {x : Design} {d : Disk} {folder : Path} {commands : List Command}
    (made : x.creation d folder = .ok commands) :
    List.Forall₂ (fun c line => readLine? d.cwdPath c = some line) (x.constraintsFor folder)
      (linesStarting readFront commands) := by
  obtain ⟨a, told, rfl⟩ := exists_account_of_creation made
  have each := map_eq_map_some_of_mapM (constraints_of_account told)
  rw [linesStarting_reads, List.forall₂_map_right_iff]
  have same : List.Forall₂ (· = ·) ((x.constraintsFor folder).map (constraintAccount? d))
      (a.constraints.map some) := by
    rw [each]
    exact List.forall₂_refl _
  rw [List.forall₂_map_left_iff, List.forall₂_map_right_iff] at same
  refine same.imp fun c k known => ?_
  obtain ⟨file, text, rfl⟩ := Option.map_eq_some_iff.mp known
  obtain ⟨top, absolute, rfl⟩ := Option.map_eq_some_iff.mp text
  rw [readLine?, absolute]
  rfl

theorem generics_of_account {x : Design} {d : Disk} {folder : Path} {a : Account}
    (told : x.account? d folder = some a) :
    a.generics = x.generics.bindings.map fun b => (b.1, b.2.rendered) := by
  simp only [account?, Option.bind_eq_bind, Option.bind_eq_some_iff] at told
  obtain ⟨sources, -, blockDesign, -, constraints, -, same⟩ := told
  rw [← Option.some.inj same]

/-- A script of creation has one line that sets the generics, or none if there are no generics. -/
theorem linesStarting_creation_generics {x : Design} {d : Disk} {folder : Path}
    {commands : List Command} (made : x.creation d folder = .ok commands) :
    linesStarting genericsFront commands =
      if x.generics.bindings = [] then []
      else [genericsFront ++ "\x7b" ++ x.generics.tclList ++ "\x7d [current_fileset]"] := by
  obtain ⟨a, told, rfl⟩ := exists_account_of_creation made
  have list : bindingsText a.generics = x.generics.tclList := by
    rw [generics_of_account told, bindingsText, List.map_map]
    rfl
  rw [linesStarting_generics, genericsLine, list, generics_of_account told]
  simp

end Design

end FpgaProject
