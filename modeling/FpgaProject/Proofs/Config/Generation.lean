import FpgaProject.Proofs.Config.Root
import FpgaProject.Proofs.Disk.Complaint
import FpgaProject.Proofs.Project.Refusal

/-!
Projects that come from a configuration can be generated.

A script is refused for an empty path and for nothing else. The texts of a configuration may be
empty, but its paths are taken to start at the directory of its file, which is not; and what comes
from the modules was found on a disk, where the empty path finds nothing. So the scripts of a
project that was opened can be made at any later time and for any folder. Main statement:
`opened_generable`.
-/

namespace FpgaProject

/-! ### Scripts that can be made -/

namespace Design

variable {x : Design}

/-- The request says where the results go, or it asks for none. -/
def BuildRequest.IsComplete (r : BuildRequest) : Prop :=
  (∃ output ∈ r.output, output.text ≠ "") ∨ (r.synthesisOnly = true ∧ r.output = none)

/-- A request is refused in a script exactly if an output is missing or empty. -/
theorem exists_absoluteOutput_iff {d : Disk} {r : BuildRequest} :
    (∃ out, absoluteOutput d r = .ok out) ↔ r.IsComplete := by
  obtain ⟨synthesisOnly, threads, given⟩ := r
  cases given with
  | none => cases synthesisOnly <;> simp [absoluteOutput, BuildRequest.lacksOutput,
      BuildRequest.IsComplete]
  | some output =>
    cases absolute : output.absolute? d.cwdPath with
    | none =>
      have empty := Path.absolute?_eq_none_iff.mp absolute
      simp [absoluteOutput, BuildRequest.IsComplete, absolute, empty]
    | some top =>
      have given := Path.text_ne_of_absolute? absolute
      simp [absoluteOutput, BuildRequest.IsComplete, absolute, given]

/-- The script of building can be made exactly if the request is complete and the project file has a
path; the design has no say in it. -/
theorem exists_building_iff {d : Disk} {projectFile : Path} {r : BuildRequest} :
    (∃ commands, x.building d projectFile r = .ok commands) ↔
      r.IsComplete ∧ projectFile.text ≠ "" := by
  rw [← exists_absoluteOutput_iff (d := d)]
  unfold building absoluteText
  cases absoluteOutput d r with
  | error e => simp [bind, Except.bind]
  | ok out =>
    cases absolute : projectFile.absolute? d.cwdPath with
    | none =>
      have empty := Path.absolute?_eq_none_iff.mp absolute
      simp [bind, Except.bind, empty]
    | some top =>
      have given := Path.text_ne_of_absolute? absolute
      simp [bind, Except.bind, given]

/-- A project file and an output that have paths are not to blame for an empty one. -/
theorem building_ne_emptyPath {d : Disk} {projectFile : Path} {r : BuildRequest}
    (file : projectFile.text ≠ "") (output : ∀ folder ∈ r.output, folder.text ≠ "") :
    x.building d projectFile r ≠ .error (.fault .emptyPath) := by
  intro failed
  cases lacks : r.lacksOutput with
  | false =>
    obtain ⟨_, _, -, -, -, made⟩ := building_eq (x := x) (d := d) file output lacks
    rw [made] at failed
    cases failed
  | true =>
    have none : r.output = none := by
      simp only [BuildRequest.lacksOutput, Bool.and_eq_true, Option.isNone_iff_eq_none] at lacks
      exact lacks.2
    simp [building, absoluteOutput, none, lacks, bind, Except.bind] at failed

end Design

namespace Project

variable {q : Project}

theorem writeScript_ne_emptyPath (d : Disk) (script : Path) (commands : List Script.Command) :
    (writeScript d script commands).2.result ≠ .error (.fault .emptyPath) := by
  have written := d.writeText_ne_emptyPath script (Script.text commands)
  unfold writeScript
  split
  · rename_i d' f result
    rw [result] at written
    rintro ⟨⟩
    exact written rfl
  · simp

theorem fill_ne_emptyPath (d : Disk) (folder : Path) (commands : List Script.Command) :
    (q.fill d folder commands).2.result ≠ .error (.fault .emptyPath) := by
  have crossings : (q.writeCrossings d folder).2 ≠ .error .emptyPath := by
    unfold writeCrossings
    split
    · exact d.writeText_ne_emptyPath _ _
    · simp
  unfold fill
  split
  · rename_i d' f result
    rw [result] at crossings
    rintro ⟨⟩
    exact crossings rfl
  · exact writeScript_ne_emptyPath _ _ _

/-- If the paths of its design are given, creating a project does not fail for an empty path, unless
it is that of the folder. -/
theorem createScript_ne_emptyPath (full : ¬ q.design.HasEmptyPath) {folder : Path}
    (given : folder.text ≠ "") (d : Disk) :
    (q.createScript folder d).2.result ≠ .error (.fault .emptyPath) := by
  obtain ⟨top, absolute⟩ := Path.exists_absolute? given d.cwdPath
  rcases q.createScript_inv folder d with ⟨there, call⟩ | ⟨missing, -⟩
  · rw [call]
    rintro ⟨⟩
  · rw [createScript_eq_createAt missing absolute]
    unfold createAt
    split
    · rename_i e unscripted
      exact absurd (Design.creation_eq_error_iff.mp unscripted).1 full
    · have directories := d.makeDirectories_ne_emptyPath top
      split
      · rename_i d' f result
        rw [result] at directories
        rintro ⟨⟩
        exact directories rfl
      · exact fill_ne_emptyPath _ _ _

theorem text_projectFile_ne (folder : Path) : (q.projectFile folder).text ≠ "" := by
  have named : q.name ++ ".xpr" ≠ "" := by simp
  intro empty
  unfold projectFile Path.child Path.join at empty
  split_ifs at empty
  · exact named empty
  · simp at empty
  · simp at empty

/-- Building a project does not fail for an empty path, unless it is that of the output. -/
theorem buildScript_ne_emptyPath {request : Design.BuildRequest}
    (given : ∀ output ∈ request.output, output.text ≠ "") (folder : Path) (d : Disk) :
    (q.buildScript folder request d).2.result ≠ .error (.fault .emptyPath) := by
  have scripted := Design.building_ne_emptyPath (x := q.design) (d := d)
    (q.text_projectFile_ne folder) given
  simp only [buildScript]
  split
  · split
    · rename_i e failed
      rintro ⟨⟩
      exact scripted failed
    · exact writeScript_ne_emptyPath _ _ _
  · rintro ⟨⟩

end Project

/-! ### Projects that were opened -/

/-- A project that was opened from a configuration, by itself or with all that are in it. -/
inductive Project.OpenedFrom (d : Disk) (environment : Option String) (file : Path) (q : Project) :
    Prop where
  | alone (name tool : Option String)
      (opened : (openProject d environment file name tool).result = .ok q) :
      OpenedFrom d environment file q
  | together (qs : List Project) (opened : (openProjects d environment file).result = .ok qs)
      (member : q ∈ qs) : OpenedFrom d environment file q

section

variable {d : Disk} {environment : Option String} {file : Path} {q : Project}

/-- However a project was opened, it is the one of an entry. -/
theorem Project.OpenedFrom.exists_entry (opened : q.OpenedFrom d environment file) :
    ∃ (p : ProjectEntry) (tool : Option String),
      (p.project d environment file tool).result = .ok q := by
  cases opened with
  | alone name tool opened =>
    obtain ⟨p, -, made⟩ := openProject_eq_ok_iff.mp opened
    exact ⟨p, tool, made⟩
  | together qs opened member =>
    rw [result_openProjects] at opened
    cases read : Config.ofFile d file with
    | error e =>
      rw [read] at opened
      cases opened
    | ok c =>
      rw [read] at opened
      obtain ⟨p, -, made⟩ := exists_of_mem_of_mapM opened q member
      exact ⟨p, none, made⟩

/-- No path of a project that was opened is empty, whatever stands in the configuration. -/
theorem not_hasEmptyPath_of_opened (opened : q.OpenedFrom d environment file) :
    ¬ q.design.HasEmptyPath := by
  obtain ⟨p, tool, made⟩ := opened.exists_entry
  apply (ProjectEntry.supplies_of_project made).not_hasEmptyPath
  intro own
  exact Path.text_ne_of_absolute? (Path.absolute?_resolve (text_configRoot_ne file) own d.cwdPath)

/-- Whatever the disk holds by then, the scripts of a project that was opened can be made: that of
creation for any folder, that of building exactly for a project file that has a path and a request
that is complete. Neither creating nor building it in a folder comes to asking for the absolute form
of an empty path, unless the path of the folder or of the output is itself empty. -/
theorem opened_generable (opened : q.OpenedFrom d environment file) (d' : Disk) (folder : Path) :
    (∃ commands, q.design.creation d' folder = .ok commands) ∧
    (∀ projectFile request, (∃ commands, q.design.building d' projectFile request = .ok commands) ↔
      request.IsComplete ∧ projectFile.text ≠ "") ∧
    (folder.text ≠ "" →
      (q.createScript folder d').2.result ≠ .error (.fault .emptyPath)) ∧
    ∀ request, (∀ output ∈ request.output, output.text ≠ "") →
      (q.buildScript folder request d').2.result ≠ .error (.fault .emptyPath) := by
  have full := not_hasEmptyPath_of_opened opened
  refine ⟨?creation, ?building, ?created, ?built⟩
  case creation =>
    cases made : q.design.creation d' folder with
    | ok commands => exact ⟨commands, rfl⟩
    | error e => exact absurd (Design.creation_eq_error_iff.mp made).1 full
  case building =>
    intro projectFile request
    exact Design.exists_building_iff
  case created =>
    intro given
    exact Project.createScript_ne_emptyPath full given d'
  case built =>
    intro request given
    exact Project.buildScript_ne_emptyPath given folder d'

end

/-- A disk with a configuration in which all paths but one are empty. -/
def blankPaths : Disk where
  entries := [(["work"], .directory), (["lib"], .directory), (["lib", "m"], .directory),
    (["lib", "m", "a.vhd"], .file (.text "") false),
    (["work", "Vproj.toml"], .file (.text ("[[project]]\nname = \"n\"\npart = \"p\"\n" ++
      "modules = [\"\", \"/lib\"]\nblock-design = \"\"\nclock-crossings = \"\"\n" ++
      "[[project.constraint]]\nfile = \"\"\n")) false)]
  distinct := by decide
  cwd := ["work"]

/-- The project is opened all the same, and its scripts can be made on the disk as it is and on one
that holds nothing. -/
theorem blankPaths_generable :
    ∃ q : Project, q.OpenedFrom blankPaths none ⟨"/work/Vproj.toml"⟩ ∧
      q.design.modules.map Module.name = ["m"] ∧
      (∃ commands, q.design.creation blankPaths ⟨"/out"⟩ = .ok commands) ∧
      (∃ commands, q.design.creation (.empty []) ⟨"/out"⟩ = .ok commands) ∧
      ∃ commands, q.design.building (.empty []) ⟨"n.xpr"⟩ ⟨true, 1, none⟩ = .ok commands := by
  have shown : (openProject blankPaths none ⟨"/work/Vproj.toml"⟩ none none).result.toOption.map
      (fun q => q.design.modules.map Module.name) = some ["m"] := by
    decide +kernel
  obtain ⟨q, opened, modules⟩ := Option.map_eq_some_iff.mp shown
  have opened : q.OpenedFrom blankPaths none ⟨"/work/Vproj.toml"⟩ :=
    .alone none none (eq_ok_of_toOption opened)
  refine ⟨q, opened, modules, (opened_generable opened blankPaths ⟨"/out"⟩).1,
    (opened_generable opened (.empty []) ⟨"/out"⟩).1, ?_⟩
  apply ((opened_generable opened (.empty []) ⟨"/out"⟩).2.1 ⟨"n.xpr"⟩ ⟨true, 1, none⟩).mpr
  exact ⟨.inr ⟨rfl, rfl⟩, by decide⟩

end FpgaProject
