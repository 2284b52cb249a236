import FpgaProject.Process.Batch
import FpgaProject.Proofs.Disk.Extending
import FpgaProject.Proofs.Disk.Naming
import FpgaProject.Proofs.Project.Scripts
import FpgaProject.Proofs.Script.Quoting

/-!
What a created project refers to.

The tool is started in another directory than the one in which a project is created, so nothing that
it is told may depend on the working directory. An absolute form is its own absolute form
(`Path.absolute?_absolute?`), so the script is handed over under the path under which it was written,
and the constraint on clock crossings is read under the path under which it was written, if it was.
Main statement: `created_reachable`.
-/

namespace FpgaProject

/-! ### Reading from anywhere -/

namespace Disk

variable {d : Disk} {p : Path}

/-- From every working directory, a file with the text is read under the path. -/
def ReadsAnywhere (d : Disk) (p : Path) (s : String) : Prop :=
  ∀ cwd, (d.within cwd).readText p = .ok s

theorem walk_within (d : Disk) (cwd l : Location) (pieces : List String) :
    (d.within cwd).walk l pieces = d.walk l pieces := by
  induction pieces generalizing l with
  | nil => rfl
  | cons piece pieces ih => simp only [walk, entryAt?_within, ih]

/-- An absolute path leads to the same place from every working directory. -/
theorem locate_within (absolute : p.isAbsolute = true) (cwd : Location) :
    (d.within cwd).locate p = d.locate p := by
  simp [locate, origin, absolute, walk_within]

theorem readsAnywhere_of_locate (absolute : p.isAbsolute = true) {l : Location} {s : String}
    {x : Bool} (found : d.locate p = .ok l) (there : d.entryAt? l = some (.file (.text s) x)) :
    d.ReadsAnywhere p s := fun cwd =>
  Project.readText_of_locate ((locate_within absolute cwd).trans found) there

variable {folder top : Path} {name : String}

/-- What stands in an absolute form is its own absolute form. -/
theorem absolute?_child_self (sound : d.Sound) (htop : folder.absolute? d.cwdPath = some top)
    (legal : Path.IsName name) (notDot : name ≠ ".") :
    (top.child name).absolute? d.cwdPath = some (top.child name) := by
  have own : top.absolute? d.cwdPath = some top :=
    Path.absolute?_absolute? (isTidy_cwdPath sound).1 htop d.cwdPath
  rw [Path.absolute?_child d.isAbsolute_cwdPath (Path.text_ne_of_absolute? own) legal notDot, own]
  rfl

/-- Where no backslash comes from, what stands in an absolute form is written as it is. -/
theorem tclText_child_of_plain (htop : folder.absolute? d.cwdPath = some top)
    (plainDirectory : '\\' ∉ d.cwdPath.chars) (plainFolder : '\\' ∉ folder.chars)
    (plainName : '\\' ∉ name.toList) : (top.child name).tclText = (top.child name).text := by
  refine Path.tclText_eq_text fun member => ?_
  rcases Path.mem_chars_child member with inTop | inName | slash
  · rcases Path.mem_chars_absolute? htop inTop with slash | inFolder | ⟨-, inDirectory⟩
    · exact absurd slash (by decide)
    · exact plainFolder inFolder
    · exact plainDirectory inDirectory
  · exact plainName inName
  · exact absurd slash (by decide)

end Disk

/-! ### Handing over -/

/-- What is run on a script that is named by its absolute form, and what that comes to. -/
theorem Batch.result_runner {d : Disk} {script : Path}
    (own : script.absolute? d.cwdPath = some script) (launch : Launcher) (verbose : Bool)
    (tool : String) (screen : Screen) :
    (runner launch verbose tool script d screen).2.result =
      match launch d (directory d script) tool (arguments script) with
      | .error f => .error (.fault f)
      | .ok left => outcome left.ending := by
  simp only [runner, own]
  cases launch d (directory d script) tool (arguments script) <;> rfl

/-! ### The constraint on clock crossings -/

namespace Design

open Script

/-- The constraint on clock crossings is read right behind those of the user, which are the first. -/
theorem exists_crossings_of_creation {x : Design} {d : Disk} {folder : Path}
    {commands : List Command} (made : x.creation d folder = .ok commands) :
    ∃ (before : List Command) (users : List (List Command)) (operand : String)
      (rest : List Command), x.constraints.mapM (constraintCommands d) = .ok users ∧
      absoluteText d (x.clockCrossings.getD (folder.child crossingsFile)) = .ok operand ∧
      commands = before ++ users.flatten ++ .readConstraint none operand :: rest ∧
      ∀ c ∈ before, ∀ reference file, c ≠ .readConstraint reference file := by
  obtain ⟨a, told, rfl⟩ := exists_account_of_creation made
  have constraints := constraints_of_account told
  rw [constraintsFor, List.mapM_append, List.mapM_cons] at constraints
  simp only [Option.bind_eq_bind, Option.bind_eq_some_iff, Option.pure_def, Option.some.injEq]
    at constraints
  obtain ⟨users, first, -, ⟨crossings, second, entity, -, rfl⟩, all⟩ := constraints
  obtain ⟨operand, file, rfl⟩ := Option.map_eq_some_iff.mp second
  let start := [Command.createProject a.name a.folder a.part, .setLanguage, .blank]
  let before := start ++ a.sourceCommands ++ [Command.blank] ++ a.blockDesignCommands ++
    [Command.blank] ++ a.genericCommands ++ [Command.blank]
  let rest := entity.flatMap ConstraintAccount.commands ++
    [Command.blank, Command.setTop a.top, Command.reorderFiles, Command.blank, Command.exit]
  refine ⟨before, users.map ConstraintAccount.commands, operand, rest, ?_,
    absoluteText_eq_ok_iff.mpr file, ?_, ?_⟩
  · rw [mapM_orError (constraintCommands_eq d), first]
    rfl
  · simp [start, before, rest, Account.commands_eq_append, Account.pathCommands,
      Account.constraintCommands, ← all, ConstraintAccount.commands, Constraint.ofFile, leftOut?,
      List.flatMap_def]
  · rintro c member reference file rfl
    have generic : Command.readConstraint reference file ∉ a.genericCommands := by
      unfold Account.genericCommands
      split <;> simp
    simp [start, before, Account.sourceCommands, Account.blockDesignCommands, generic] at member

/-- For a folder that is its own absolute form, each path in the script of creation starts with a
slash. -/
theorem rooted_of_creation {x : Design} {d : Disk} {folder : Path} {commands : List Command}
    (own : folder.absolute? d.cwdPath = some folder) (made : x.creation d folder = .ok commands) :
    ∀ c ∈ commands, ∀ slot ∈ c.slot?, ∀ t ∈ slot.operand.all, t.head? = some '/' := by
  obtain ⟨a, told, rfl⟩ := exists_account_of_creation made
  have paths := holdsPaths_of_account told (by
    rw [tclText?, own, folder_of_account told]
    rfl)
  exact fun c listed slot stands t inside =>
    (Account.holdsPaths_commands paths c listed slot stands t inside).rooted

end Design

namespace Project

section

variable {p : Project} {d : Disk} {folder script : Path} {commands : List Script.Command}

/-- Without a constraint of its own, a project has the one that comes with it beside the script. -/
theorem readsAnywhere_crossings (bundled : p.bundledCrossings = true)
    (absolute : folder.isAbsolute = true)
    (ok : (p.fill d folder commands).2.result = .ok script) :
    (p.fill d folder commands).1.ReadsAnywhere (folder.child crossingsFile) crossingsText := by
  have legal : Path.IsName crossingsFile := by decide
  have crossings : p.writeCrossings d folder =
      d.writeText (folder.child crossingsFile) crossingsText := by
    simp [writeCrossings, bundled]
  rcases d.writeText_child folder crossingsFile legal crossingsText with
    ⟨f, failed⟩ | ⟨x, wrote, -, -, found⟩
  · simp [fill, crossings, failed, Report.fail] at ok
  · have there : (d.put (d.place folder ++ [crossingsFile]) (.file (.text crossingsText) x)).entryAt?
        (d.place folder ++ [crossingsFile]) = some (.file (.text crossingsText) x) := by
      rw [Disk.entryAt?_put d (by simp), if_pos rfl]
    generalize d.put (d.place folder ++ [crossingsFile]) (.file (.text crossingsText) x) = d₂
      at wrote found there
    -- The script is written next, and that keeps a file of another name.
    have call : p.fill d folder commands = writeScript d₂ (folder.child creationFile) commands := by
      simp [fill, crossings, wrote]
    rw [call] at ok ⊢
    rcases d₂.writeText_child folder creationFile (by decide) (Script.text commands) with
      ⟨f, failed⟩ | ⟨x', wrote', -, keeps, -⟩
    · simp [writeScript, failed, Report.fail] at ok
    · have apart : d.place folder ++ [crossingsFile] ≠ d₂.place folder ++ [creationFile] :=
        fun same => absurd (List.append_inj' same rfl).2 (by decide)
      rw [writeScript_fst, wrote']
      refine Disk.readsAnywhere_of_locate (x := x) ?_ (keeps.locate_eq_ok found) ?_
      · rwa [Path.isAbsolute_child legal]
      · rw [Disk.entryAt?_put d₂ (by simp), if_neg apart, there]

/-- With a constraint of its own, a project has no file but the script. -/
theorem extends_fill_of_given (given : p.bundledCrossings = false) :
    d.Extends [creationFile] (p.fill d folder commands).1 := by
  have crossings : p.writeCrossings d folder = (d, .ok ()) := by
    simp [writeCrossings, given]
  have call : p.fill d folder commands = writeScript d (folder.child creationFile) commands := by
    simp [fill, crossings]
  rw [call, writeScript_fst]
  exact d.extends_writeText folder creationFile (by decide) _

end

/-- What a project refers to, after it has been created by the script and from the directory in
which that was done. -/
structure Reachable (options : ProjectOptions) (d after : Disk) (script : Path)
    (commands : List Script.Command) : Prop where
  /-- The script is there under an absolute path. -/
  absolute : script.isAbsolute = true
  written : after.ReadsAnywhere script (Script.text commands)
  /-- The tool is handed that very path. -/
  handed : ∀ launch verbose tool screen,
    (Batch.runner launch verbose tool script after screen).2.result =
      match launch after (Batch.directory after script) tool
        ["-mode", "batch", "-notrace", "-source", script.text] with
      | .error f => .error (.fault f)
      | .ok left => Batch.outcome left.ending
  /-- Each path in the script starts with a slash. -/
  rooted : ∀ c ∈ commands, ∀ slot ∈ c.slot?, ∀ t ∈ slot.operand.all, t.head? = some '/'
  /-- Right behind the constraints of the user, the constraint on clock crossings is read: the one
  that comes with the project, which is there, or the one that is given, and then there is none
  beside the script. -/
  crossings : ∃ (before : List Script.Command) (users : List (List Script.Command))
    (operand : String) (rest : List Script.Command),
    options.constraints.mapM (Design.constraintCommands d) = .ok users ∧
    commands = before ++ users.flatten ++ .readConstraint none operand :: rest ∧
    (∀ c ∈ before, ∀ reference file, c ≠ .readConstraint reference file) ∧
    (options.clockCrossings = none → after.ReadsAnywhere ⟨operand⟩ crossingsText) ∧
    ∀ file, options.clockCrossings = some file →
      Design.absoluteText d file = .ok operand ∧ d.Extends [creationFile] after

theorem design_of_assemble {d : Disk} {name part : String} {modules : List Module}
    {options : ProjectOptions} {p : Project}
    (assembled : (assemble d name modules part options).result = .ok p) :
    p.design.constraints = options.constraints ∧
      p.design.clockCrossings = options.clockCrossings := by
  obtain rfl := Except.ok.inj assembled
  exact ⟨rfl, rfl⟩

/-- A project that has been created can be reached from anywhere, as long as no backslash stands in
its folder or in the working directory: its script is the one for the absolute form of the folder. -/
theorem created_reachable {d₀ d : Disk} (sound : d.Sound) {name part : String}
    {modules : List Module} {options : ProjectOptions} {p : Project}
    (assembled : (assemble d₀ name modules part options).result = .ok p) {folder script : Path}
    (plainDirectory : '\\' ∉ d.cwdPath.chars) (plainFolder : '\\' ∉ folder.chars)
    (ok : (p.createScript folder d).2.result = .ok script) :
    ∃ top commands, folder.absolute? d.cwdPath = some top ∧
      p.design.creation d top = .ok commands ∧
      Reachable options d (p.createScript folder d).1 script commands := by
  obtain ⟨sameConstraints, sameCrossings⟩ := design_of_assemble assembled
  rcases p.createScript_cases folder d with
    ⟨e, failed, -⟩ | ⟨top, commands, d₁, -, htop, made, directories, call⟩
  · rw [failed] at ok
    cases ok
  rw [call] at ok ⊢
  obtain ⟨d₂, crossed, ⟨e, failed, -⟩ | ⟨x, written, after, found⟩⟩ := p.fill_cases d₁ top commands
  · rw [failed] at ok
    cases ok
  obtain rfl : top.child creationFile = script := Except.ok.inj (written.symm.trans ok)
  have absolute : top.isAbsolute = true := Path.isAbsolute_absolute? d.isAbsolute_cwdPath htop
  have grows : d.Grows d₁ := by simpa [directories] using d.grows_makeDirectories top
  have stayed : (p.fill d₁ top commands).1.cwdPath = d.cwdPath := by
    rw [after, Disk.cwdPath, Disk.cwd_put, crossed.cwd_eq, grows.cwd, Disk.cwdPath]
  have own {name : String} (legal : Path.IsName name) (notDot : name ≠ ".") :=
    Disk.absolute?_child_self sound htop legal notDot
  have plain {name : String} (free : '\\' ∉ name.toList) :=
    Disk.tclText_child_of_plain htop plainDirectory plainFolder free
  refine ⟨top, commands, htop, made, ?absolute, ?written, ?handed, ?rooted, ?crossings⟩
  case absolute =>
    rwa [Path.isAbsolute_child (by decide)]
  case written =>
    refine Disk.readsAnywhere_of_locate (x := x) ?_ found ?_
    · rwa [Path.isAbsolute_child (by decide)]
    · rw [after, Disk.entryAt?_put d₂ (by simp), if_pos rfl]
  case handed =>
    intro launch verbose tool screen
    rw [Batch.result_runner (stayed ▸ own (by decide) (by decide)), Batch.arguments,
      plain (by decide)]
  case rooted =>
    exact Design.rooted_of_creation
      (Path.absolute?_absolute? (Disk.isTidy_cwdPath sound).1 htop d.cwdPath) made
  case crossings =>
    obtain ⟨before, users, operand, rest, first, text, split, early⟩ :=
      Design.exists_crossings_of_creation made
    rw [sameConstraints] at first
    refine ⟨before, users, operand, rest, first, split, early, fun unset => ?_, fun file given => ?_⟩
    · have none : p.design.clockCrossings = none := sameCrossings.trans unset
      have bundled : p.bundledCrossings = true := by
        rw [bundledCrossings_of_assemble assembled, none]
        rfl
      obtain rfl : (top.child crossingsFile).text = operand := by
        rw [none, Option.getD_none, Design.absoluteText,
          own (by decide) (by decide)] at text
        exact (plain (by decide)).symm.trans (Except.ok.inj text)
      exact readsAnywhere_crossings bundled absolute written
    · rw [sameCrossings, given, Option.getD_some] at text
      refine ⟨text, grows.extends.trans (extends_fill_of_given ?_)⟩
      rw [bundledCrossings_of_assemble assembled, sameCrossings, given]
      rfl

/-- A project that is created in a new folder, under a relative path with a slash at its end. -/
theorem bare_reachable : ∃ top commands, (⟨"./c/"⟩ : Path).absolute? occupied.cwdPath = some top ∧
    bare.design.creation occupied top = .ok commands ∧
    Reachable {} occupied (bare.createScript ⟨"./c/"⟩ occupied).1
      ⟨"/work/c/create_vivado_project.tcl"⟩ commands :=
  created_reachable sound_occupied
    (show (assemble occupied "p" [] "part" {}).result = .ok bare from rfl)
    (by decide +kernel) (by decide +kernel) (by rfl)

end Project

end FpgaProject
