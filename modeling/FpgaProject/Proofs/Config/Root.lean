import FpgaProject.Proofs.Config.Opening
import FpgaProject.Proofs.Disk.Naming
import FpgaProject.Proofs.Script.Account

/-!
The directory at which the relative paths of a configuration start.

It is what stands before the name of the file, or `.` if nothing stands there, so it is spelled as
the file is. But it leads to one directory, which is read off the absolute form of the file
(`reached_configRoot`), and so does each path of the configuration
(`absolute?_configRoot_resolve`). Main statement: `spellings_open_alike`.

That is said of the paths that stand in the configuration. Which modules are found depends on the
spelling, since the listing of a directory takes the text of its path piece by piece and, where a
relative path starts with `.//`, comes to nothing.
-/

namespace FpgaProject

open Design

/-! ### What stands before the name of a file -/

section

variable {d : Disk} {file top : Path} {l : Location}

theorem configRoot_child {name : String} (legal : Path.IsName name) (notDot : name ≠ ".")
    (p : Path) : configRoot (p.child name) = p.bare := by
  rw [configRoot, Path.parent?_child legal notDot]
  rfl

theorem text_configRoot_ne (file : Path) : (configRoot file).text ≠ "" := by
  unfold configRoot
  split
  · split
    · decide
    · rename_i given
      simpa using given
  · decide

/-- However the path of a file is spelled, what stands before the name leads to what stands before
the name in its absolute form. -/
theorem reached_configRoot (sound : d.Sound) (found : d.locate file = .ok l)
    (isFile : d.entryAt? l ≠ some .directory) (absolute : file.absolute? d.cwdPath = some top) :
    (configRoot file).reached d.cwdPath = configRoot top ∧
      (configRoot file).absolute? d.cwdPath = some (configRoot top) ∧ (configRoot top).IsTidy := by
  obtain ⟨above, name, legal, named, rfl⟩ := Disk.exists_child_of_file sound found isFile
  obtain ⟨tidy, whole⟩ := Disk.isTidy_cwdPath sound
  rw [Path.absolute?_child_eq_reached legal named.1] at absolute
  obtain rfl := Option.some.inj absolute
  rw [configRoot_child legal named.1, configRoot_child legal named.1, Path.absolute?_bare,
    Path.reached_bare whole]
  exact ⟨rfl, rfl, (Path.isTidy_reached tidy above).bare⟩

/-- A path of a configuration is looked at from the directory of its file. -/
theorem absolute?_configRoot_resolve (sound : d.Sound) (found : d.locate file = .ok l)
    (isFile : d.entryAt? l ≠ some .directory) (absolute : file.absolute? d.cwdPath = some top)
    (p : Path) :
    ((configRoot file).resolve p).absolute? d.cwdPath = some (p.tidied (configRoot top)) := by
  rw [Path.absolute?_resolve (text_configRoot_ne file),
    (reached_configRoot sound found isFile absolute).1]

theorem locate_of_absolute (sound : d.Sound) (found : d.locate file = .ok l)
    (isFile : d.entryAt? l ≠ some .directory) (absolute : file.absolute? d.cwdPath = some top)
    (text : Disk.textFault? top = none) : d.locate top = d.locate file := by
  obtain ⟨above, name, legal, named, rfl⟩ := Disk.exists_child_of_file sound found isFile
  exact Disk.locate_child_of_absolute? sound legal named absolute
    (Disk.textFault?_of_locate found) text

end

/-! ### Reading a configuration under two paths -/

namespace Config

variable {d : Disk} {c : Config}

/-- A configuration is read from a file. -/
theorem exists_of_ofFile {file : Path} (read : ofFile d file = .ok c) :
    ∃ l, d.locate file = .ok l ∧ d.entryAt? l ≠ some .directory := by
  unfold ofFile at read
  split at read
  · cases found : d.locate file with
    | error f => simp [Disk.readText, found, bind, Except.bind] at read
    | ok l =>
      refine ⟨l, rfl, ?_⟩
      intro directory
      simp [Disk.readText, found, directory, bind, Except.bind] at read
  · cases read

theorem ofFile_of_locate {file other : Path} (same : d.locate other = d.locate file)
    (read : ofFile d file = .ok c) : ofFile d other = .ok c := by
  have there : d.pathExists other = d.pathExists file := by
    simp [Disk.pathExists, Disk.find?, same]
  have text : d.readText other = d.readText file := by
    simp [Disk.readText, same]
  unfold ofFile at read ⊢
  rw [there, text]
  split at read
  · rename_i found
    rw [if_pos found]
    cases got : d.readText file with
    | error f => simp [got] at read
    | ok source =>
      cases parsed : ofText source with
      | error f => simp [got, parsed] at read
      | ok c' => simpa [got, parsed] using read
  · cases read

/-- Which entry is picked does not depend on the file. -/
theorem select_of_select {name : Option String} {file : Path} {p : ProjectEntry}
    (picked : c.select name file = .ok p) (other : Path) : c.select name other = .ok p := by
  unfold select at picked ⊢
  cases name with
  | some n => exact picked
  | none =>
    match own : c.projects, picked with
    | [_], picked => simpa [own] using picked

/-- What gives an entry is a file. -/
theorem Gives.exists_locate {file : Path} {name : Option String} {p : ProjectEntry}
    (gives : Gives d file name p) :
    ∃ l, d.locate file = .ok l ∧ d.entryAt? l ≠ some .directory := by
  obtain ⟨c, read, -⟩ := gives
  exact exists_of_ofFile read

theorem Gives.of_locate {file other : Path} {name : Option String} {p : ProjectEntry}
    (gives : Gives d file name p) (same : d.locate other = d.locate file) :
    Gives d other name p := by
  obtain ⟨c, read, picked⟩ := gives
  exact ⟨c, ofFile_of_locate same read, select_of_select picked other⟩

end Config

/-! ### What a script tells of the paths in an entry -/

namespace ProjectEntry

variable {p : ProjectEntry} {root dir : Path}

/-- The constraints of an entry as they are told if relative paths start at `dir`. -/
def constraintsTold (p : ProjectEntry) (dir : Path) : List ConstraintAccount :=
  p.constraints.map fun c => ⟨(c.file.tidied dir).tclText, c.reference, c.usage⟩

/-- The constraint on clock crossings as it is told: the one of the entry, or else the one that comes
with the project. -/
def crossingsTold (p : ProjectEntry) (dir bundled : Path) : ConstraintAccount :=
  ⟨((p.clockCrossings.map (·.tidied dir)).getD bundled).tclText, none, .all⟩

/-- An account of a project tells of the paths of an entry what they come to from `dir`. The
constraints of modules come after those of the entry. -/
structure ToldFrom (p : ProjectEntry) (dir bundled : Path) (a : Account) : Prop where
  blockDesign : a.blockDesign = p.blockDesign.map fun file => (file.tidied dir).tclText
  constraints : p.constraintsTold dir ++ [p.crossingsTold dir bundled] <+: a.constraints

/-- The script that makes a project in a folder can be made, and it tells of the paths of an entry
what they come to from `dir`. -/
def TellsFrom (p : ProjectEntry) (dir : Path) (q : Project) (d : Disk) (folder : Path) : Prop :=
  ∃ a, q.design.account? d folder = some a ∧ q.design.creation d folder = .ok a.commands ∧
    p.ToldFrom dir ((folder.child crossingsFile).tidied d.cwdPath) a

/-- The paths of a design are those of an entry, of which the relative ones start at `root`. -/
structure Supplies (p : ProjectEntry) (root : Path) (x : Design) : Prop where
  blockDesign : x.blockDesign = p.blockDesign.map root.resolve
  constraints : x.constraints = p.constraints.map (·.relativeTo root)
  clockCrossings : x.clockCrossings = p.clockCrossings.map root.resolve
  entityConstraints : ∀ c ∈ x.entityConstraints, c.file.text ≠ ""

/-- The modules of an entry, of which the directories are looked for from `root`. -/
def modulesFrom (p : ProjectEntry) (d : Disk) (root : Path) : Report (List Module) :=
  { Registry.empty with librarySuffix := p.librarySuffix : Registry }.discover d
    (p.modules.map root.resolve) p.names

theorem modulesFrom_of_isAbsolute (absolute : ∀ dir ∈ p.modules, dir.isAbsolute = true) (d : Disk)
    (root root' : Path) : p.modulesFrom d root = p.modulesFrom d root' := by
  have kept : ∀ root : Path, p.modules.map root.resolve = p.modules := by
    intro root
    refine (List.map_congr_left fun dir member => ?_).trans (List.map_id p.modules)
    rw [Path.resolve, if_pos (absolute dir member)]
    rfl
  rw [modulesFrom, modulesFrom, kept, kept]

section

variable {d : Disk} {environment : Option String} {file : Path} {tool : Option String}

/-- An entry describes a project exactly if its modules are found. -/
theorem exists_project_iff :
    (∃ q, (p.project d environment file tool).result = .ok q) ↔
      ∃ ms, (p.modulesFrom d (configRoot file)).result = .ok ms := by
  unfold project toProject
  rw [Report.result_bind]
  change (∃ q, ((p.modulesFrom d (configRoot file)).result >>= _) = .ok q) ↔ _
  cases (p.modulesFrom d (configRoot file)).result with
  | error e => simp [bind, Except.bind]
  | ok ms => simp [bind, Except.bind, Project.assemble]

theorem supplies_of_project {q : Project}
    (made : (p.project d environment file tool).result = .ok q) :
    p.Supplies (configRoot file) q.design := by
  obtain ⟨ms, found⟩ := exists_project_iff.mp ⟨q, made⟩
  unfold project toProject at made
  rw [Report.result_bind] at made
  change (p.modulesFrom d (configRoot file)).result >>= _ = .ok q at made
  rw [found] at made
  obtain rfl := Except.ok.inj made
  refine ⟨rfl, rfl, rfl, ?_⟩
  intro c member
  obtain ⟨m, -, member⟩ := List.mem_flatMap.mp member
  obtain ⟨script, listed, rfl⟩ := List.mem_map.mp member
  exact text_ne_of_isFile (List.mem_filter.mp listed).2

end

variable {x : Design} {d : Disk}

/-- An empty path of the entry is not empty in the design. -/
theorem Supplies.not_hasEmptyPath (supplies : p.Supplies root x)
    (given : ∀ file, (root.resolve file).text ≠ "") : ¬ x.HasEmptyPath := by
  rintro (⟨file, member, empty⟩ | ⟨file, member, empty⟩ | ⟨c, member, empty⟩)
  · rw [supplies.blockDesign] at member
    obtain ⟨own, -, rfl⟩ := Option.map_eq_some_iff.mp member
    exact given own empty
  · rw [supplies.clockCrossings] at member
    obtain ⟨own, -, rfl⟩ := Option.map_eq_some_iff.mp member
    exact given own empty
  · rcases List.mem_append.mp member with user | entity
    · rw [supplies.constraints] at user
      obtain ⟨own, -, rfl⟩ := List.mem_map.mp user
      exact given own.file empty
    · exact supplies.entityConstraints c entity empty

section

variable (supplies : p.Supplies root x)
  (led : ∀ file, (root.resolve file).absolute? d.cwdPath = some (file.tidied dir))

include led

theorem tclText?_resolve (file : Path) :
    tclText? d (root.resolve file) = some (file.tidied dir).tclText := by
  rw [tclText?, led]
  rfl

include supplies

theorem Supplies.mapM_constraints :
    x.constraints.mapM (constraintAccount? d) = some (p.constraintsTold dir) := by
  rw [supplies.constraints]
  refine mapM_map_eq_some_map fun c _ => ?_
  rw [constraintAccount?, Constraint.relativeTo, tclText?_resolve led]
  rfl

theorem Supplies.constraintAccount?_crossings (folder : Path) :
    constraintAccount? d (.ofFile (x.clockCrossings.getD (folder.child crossingsFile))) =
      some (p.crossingsTold dir ((folder.child crossingsFile).tidied d.cwdPath)) := by
  have bundled : tclText? d (folder.child crossingsFile) =
      some ((folder.child crossingsFile).tidied d.cwdPath).tclText := by
    rw [tclText?, Path.absolute?_eq_tidied (Path.text_child_ne (by decide) folder)]
    rfl
  rw [supplies.clockCrossings]
  cases own : p.clockCrossings with
  | none => simp [constraintAccount?, Constraint.ofFile, crossingsTold, own, bundled]
  | some file =>
    simp [constraintAccount?, Constraint.ofFile, crossingsTold, own, tclText?_resolve led]

/-- An account of the design tells what the paths of the entry come to from the directory at which
they start. -/
theorem Supplies.toldFrom {folder : Path} {a : Account} (told : x.account? d folder = some a) :
    p.ToldFrom dir ((folder.child crossingsFile).tidied d.cwdPath) a := by
  simp only [account?, Option.bind_eq_bind, Option.bind_eq_some_iff] at told
  obtain ⟨sources, -, blockDesign, ofDesign, constraints, all, same⟩ := told
  obtain rfl := Option.some.inj same
  constructor
  · rw [supplies.blockDesign] at ofDesign
    cases own : p.blockDesign with
    | none => simpa [own, eq_comm] using ofDesign
    | some file => simpa [own, tclText?_resolve led, eq_comm] using ofDesign
  · rw [constraintsFor, List.mapM_append, supplies.mapM_constraints led, List.mapM_cons,
      supplies.constraintAccount?_crossings led] at all
    cases entity : x.entityConstraints.mapM (constraintAccount? d) with
    | none =>
      rw [entity] at all
      cases all
    | some rest =>
      rw [entity] at all
      obtain rfl := Option.some.inj all
      exact ⟨rest, by simp⟩

end

/-- What is told does not depend on the disk but for its working directory. -/
theorem Supplies.tellsFrom {q : Project} (supplies : p.Supplies root q.design) {d' : Disk}
    (led : ∀ file, (root.resolve file).absolute? d.cwdPath = some (file.tidied dir))
    (stayed : d'.cwd = d.cwd) (folder : Path) : p.TellsFrom dir q d' folder := by
  have cwd : d'.cwdPath = d.cwdPath := by rw [Disk.cwdPath, Disk.cwdPath, stayed]
  rw [← cwd] at led
  have full := supplies.not_hasEmptyPath fun file => Path.text_ne_of_absolute? (led file)
  obtain ⟨a, told⟩ := Option.ne_none_iff_exists'.mp (mt account?_eq_none_iff.mp full)
  refine ⟨a, told, ?_, supplies.toldFrom led told⟩
  rw [creation_eq_commands, told]
  rfl

end ProjectEntry

/-! ### Opening under two paths -/

/-- A project that is opened through a path of its configuration file, and the one of the same name
that is opened through the absolute form of that path, have the same paths in their scripts, at any
later time and for any folder: each path of the configuration as it is looked at from the directory
of the file, which is the absolute form of what stands before the name. The absolute form opens the
same entry, unless its text is refused; the modules must be found from there as well, which is sure
if their directories are absolute. -/
theorem spellings_open_alike {d : Disk} (sound : d.Sound) {environment : Option String}
    {file : Path} {name tool : Option String} {q : Project}
    (opened : (openProject d environment file name tool).result = .ok q) :
    ∃ top p, file.absolute? d.cwdPath = some top ∧
      (configRoot file).absolute? d.cwdPath = some (configRoot top) ∧
      (∀ x : Path, ((configRoot file).resolve x).absolute? d.cwdPath =
          some (x.tidied (configRoot top)) ∧
        ((configRoot top).resolve x).absolute? d.cwdPath = some (x.tidied (configRoot top))) ∧
      Config.Gives d file name p ∧
      ((∃ q', (openProject d environment top name tool).result = .ok q') ↔
        Disk.textFault? top = none ∧
          ∃ ms, (p.modulesFrom d (configRoot top)).result = .ok ms) ∧
      ((∀ dir ∈ p.modules, dir.isAbsolute = true) →
        ∃ ms, (p.modulesFrom d (configRoot top)).result = .ok ms) ∧
      (∀ d' folder, d'.cwd = d.cwd → p.TellsFrom (configRoot top) q d' folder) ∧
      ∀ q', (openProject d environment top name tool).result = .ok q' →
        ∀ d' folder, d'.cwd = d.cwd → p.TellsFrom (configRoot top) q' d' folder := by
  obtain ⟨p, gives, made⟩ := openProject_eq_ok_iff.mp opened
  obtain ⟨l, found, isFile⟩ := gives.exists_locate
  have given : file.text ≠ "" :=
    (Disk.textFault?_eq_none_iff.mp (Disk.textFault?_of_locate found)).2.1
  obtain ⟨top, absolute⟩ := Path.exists_absolute? given d.cwdPath
  obtain ⟨-, root, tidy⟩ := reached_configRoot sound found isFile absolute
  have led := absolute?_configRoot_resolve sound found isFile absolute
  have ledTop : ∀ x, ((configRoot top).resolve x).absolute? d.cwdPath =
      some (x.tidied (configRoot top)) := by
    intro x
    rw [Path.absolute?_resolve (text_configRoot_ne top), tidy.reached_eq]
  have again : Disk.textFault? top = none → Config.Gives d top name p := by
    intro text
    exact gives.of_locate (locate_of_absolute sound found isFile absolute text)
  have through : ∀ q', (openProject d environment top name tool).result = .ok q' →
      Disk.textFault? top = none ∧ (p.project d environment top tool).result = .ok q' := by
    intro q' opened'
    obtain ⟨p', gives', made'⟩ := openProject_eq_ok_iff.mp opened'
    obtain ⟨l', found', -⟩ := gives'.exists_locate
    have text := Disk.textFault?_of_locate found'
    obtain rfl : p = p' := (again text).unique gives'
    exact ⟨text, made'⟩
  refine ⟨top, p, absolute, root, fun x => ⟨led x, ledTop x⟩, gives, ⟨?comes, ?goes⟩, ?sure, ?own,
    ?other⟩
  case comes =>
    rintro ⟨q', opened'⟩
    obtain ⟨text, made'⟩ := through q' opened'
    exact ⟨text, ProjectEntry.exists_project_iff.mp ⟨q', made'⟩⟩
  case goes =>
    rintro ⟨text, discovered⟩
    obtain ⟨q', made'⟩ := ProjectEntry.exists_project_iff.mpr discovered
    exact ⟨q', openProject_eq_ok_iff.mpr ⟨p, again text, made'⟩⟩
  case sure =>
    intro dirs
    rw [ProjectEntry.modulesFrom_of_isAbsolute dirs d (configRoot top) (configRoot file)]
    exact ProjectEntry.exists_project_iff.mp ⟨q, made⟩
  case own =>
    intro d' folder stayed
    exact (ProjectEntry.supplies_of_project made).tellsFrom led stayed folder
  case other =>
    intro q' opened' d' folder stayed
    have made' := (through q' opened').2
    exact (ProjectEntry.supplies_of_project made').tellsFrom ledTop stayed folder

/-- A disk with a configuration in the working directory. -/
def configured : Disk where
  entries := [(["work"], .directory), (["work", "a"], .directory),
    (["work", "Vproj.toml"], .file (.text ("[[project]]\nname = \"n\"\npart = \"p\"\n" ++
      "block-design = \".//bd.tcl\"\n[[project.constraint]]\nfile = \"\"\n")) false)]
  distinct := by decide
  cwd := ["work"]

/-- The configuration is opened through `./a/../Vproj.toml` and through the absolute form of that,
and the scripts of the two projects name the same files. -/
theorem configured_opens_alike :
    ∃ q q', (openProject configured none ⟨"./a/../Vproj.toml"⟩ none none).result = .ok q ∧
      (openProject configured none ⟨"/work/a/../Vproj.toml"⟩ none none).result = .ok q' ∧
      ∀ folder, ∃ a a' : Account, q.design.creation configured folder = .ok a.commands ∧
        q'.design.creation configured folder = .ok a'.commands ∧
        a.blockDesign = a'.blockDesign := by
  have sound : configured.Sound := .of_entries (by decide +kernel) (by decide +kernel)
  have own : (openProject configured none ⟨"./a/../Vproj.toml"⟩ none none).result.isOk = true := by
    decide +kernel
  have other : (openProject configured none ⟨"/work/a/../Vproj.toml"⟩ none none).result.isOk =
      true := by
    decide +kernel
  cases opened : (openProject configured none ⟨"./a/../Vproj.toml"⟩ none none).result with
  | error e => simp [opened, Except.isOk, Except.toBool] at own
  | ok q =>
    cases opened' : (openProject configured none ⟨"/work/a/../Vproj.toml"⟩ none none).result with
    | error e => simp [opened', Except.isOk, Except.toBool] at other
    | ok q' =>
      obtain ⟨top, p, absolute, -, -, -, -, -, tells, tells'⟩ := spellings_open_alike sound opened
      have same : (⟨"./a/../Vproj.toml"⟩ : Path).absolute? configured.cwdPath =
          some ⟨"/work/a/../Vproj.toml"⟩ := by decide +kernel
      obtain rfl := Option.some.inj (same.symm.trans absolute)
      refine ⟨q, q', rfl, rfl, fun folder => ?_⟩
      obtain ⟨a, -, made, told⟩ := tells configured folder rfl
      obtain ⟨a', -, made', told'⟩ := tells' q' opened' configured folder rfl
      exact ⟨a, a', made, made', told.blockDesign.trans told'.blockDesign.symm⟩

end FpgaProject
