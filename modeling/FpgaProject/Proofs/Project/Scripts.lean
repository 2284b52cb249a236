import FpgaProject.Proofs.Disk.Spelling
import FpgaProject.Proofs.Project.Creation
import FpgaProject.Proofs.Script.Building

/-!
One project in both scripts.

Creating a project takes the absolute form of the folder and tells the tool to make the project in
it; building goes to the project file first and takes the absolute form of that. `scripts_agree`
says that the two meet: building looks for and opens the file that stands in the very folder in which
the project is created, and how the folder is spelled leaves no trace in either script.
-/

namespace FpgaProject

namespace Project

/-! ### What is written -/

theorem readText_of_locate {d : Disk} {p : Path} {l : Location} {s : String} {x : Bool}
    (found : d.locate p = .ok l) (there : d.entryAt? l = some (.file (.text s) x)) :
    d.readText p = .ok s := by
  simp [Disk.readText, found, there, bind, Except.bind]

/-- A script of creation that has been written can be read, and says what is to be said of the
absolute form of the folder. -/
theorem readText_createScript {p : Project} {folder script : Path} {d : Disk}
    (ok : (p.createScript folder d).2.result = .ok script) :
    ∃ q commands, folder.absolute? d.cwdPath = some q ∧ p.design.creation d q = .ok commands ∧
      (p.createScript folder d).1.readText script = .ok (Script.text commands) := by
  rcases p.createScript_cases folder d with
    ⟨e, failed, -⟩ | ⟨q, commands, d₁, -, hq, made, -, call⟩
  · rw [failed] at ok
    cases ok
  · refine ⟨q, commands, hq, made, ?_⟩
    rw [call] at ok ⊢
    obtain ⟨d₂, -, ⟨e, failed, -⟩ | ⟨x, written, after, found⟩⟩ := p.fill_cases d₁ q commands
    · rw [failed] at ok
      cases ok
    · obtain rfl := Except.ok.inj (written.symm.trans ok)
      refine readText_of_locate (x := x) found ?_
      rw [after, Disk.entryAt?_put d₂ (by simp), if_pos rfl]

/-- Building a project fails and changes nothing, or the project file is there and the script is
written in place of no directory, from where it can be read. -/
theorem buildScript_cases (p : Project) (folder : Path) (request : Design.BuildRequest) (d : Disk) :
    (∃ e, p.buildScript folder request d = (d, .fail e)) ∨
      ∃ commands x, d.pathExists (p.projectFile folder) = true ∧
        p.design.building d (p.projectFile folder) request = .ok commands ∧
        (p.buildScript folder request d).2.result = .ok (folder.child buildingFile) ∧
        (p.buildScript folder request d).1 =
          d.put (d.place folder ++ [buildingFile]) (.file (.text (Script.text commands)) x) ∧
        d.Keeps (p.buildScript folder request d).1 ∧
        (p.buildScript folder request d).1.locate (folder.child buildingFile) =
          .ok (d.place folder ++ [buildingFile]) := by
  cases there : d.pathExists (p.projectFile folder) with
  | false =>
    exact .inl ⟨.projectFileNotFound (p.projectFile folder), by simp [buildScript, there]⟩
  | true =>
    cases made : p.design.building d (p.projectFile folder) request with
    | error e => exact .inl ⟨e, by simp [buildScript, there, made]⟩
    | ok commands =>
      have call : p.buildScript folder request d =
          writeScript d (folder.child buildingFile) commands := by
        simp [buildScript, there, made]
      rw [call]
      rcases d.writeText_child folder buildingFile (by decide) (Script.text commands) with
        ⟨f, failed⟩ | ⟨x, wrote, -, keeps, found⟩
      · exact .inl ⟨.fault f, by simp [writeScript, failed]⟩
      · have written : writeScript d (folder.child buildingFile) commands =
            (d.put (d.place folder ++ [buildingFile]) (.file (.text (Script.text commands)) x),
              ⟨[.wrote (folder.child buildingFile)], .ok (folder.child buildingFile)⟩) := by
          simp [writeScript, wrote]
        rw [written]
        exact .inr ⟨commands, x, rfl, rfl, rfl, rfl, keeps, found⟩

/-- A script of building that has been written can be read, and says what is to be said of the
project file. -/
theorem readText_buildScript {p : Project} {folder script : Path} {request : Design.BuildRequest}
    {d : Disk} (ok : (p.buildScript folder request d).2.result = .ok script) :
    ∃ commands, p.design.building d (p.projectFile folder) request = .ok commands ∧
      (p.buildScript folder request d).1.readText script = .ok (Script.text commands) := by
  rcases p.buildScript_cases folder request d with
    ⟨e, failed⟩ | ⟨commands, x, -, made, written, after, -, found⟩
  · rw [failed] at ok
    cases ok
  · refine ⟨commands, made, ?_⟩
    obtain rfl := Except.ok.inj (written.symm.trans ok)
    refine readText_of_locate (x := x) found ?_
    rw [after, Disk.entryAt?_put d (by simp), if_pos rfl]

/-- The script of creation starts by making the project in the folder. -/
theorem creation_starts {x : Design} {d : Disk} {folder : Path} {commands : List Script.Command}
    (made : x.creation d folder = .ok commands) :
    ∃ rest, commands = .createProject x.name folder.tclText x.part :: rest := by
  simp only [Design.creation, bind, Except.bind] at made
  split at made
  · cases made
  · split at made
    · cases made
    · split at made
      · cases made
      · obtain rfl := Except.ok.inj made
        exact ⟨_, rfl⟩

/-- The script of building starts by opening the project file under its absolute form. -/
theorem building_starts {x : Design} {d : Disk} {file : Path} {request : Design.BuildRequest}
    {commands : List Script.Command} (made : x.building d file request = .ok commands) :
    ∃ q rest, file.absolute? d.cwdPath = some q ∧ commands = .openProject q.tclText :: rest := by
  obtain ⟨q, hq, rfl⟩ := Design.exists_of_building made
  exact ⟨q, _, hq, rfl⟩

/-- Of a project file no more than its absolute form goes into the script of building. -/
theorem building_congr (x : Design) (d : Disk) {file file' : Path}
    (same : file.absolute? d.cwdPath = file'.absolute? d.cwdPath) (request : Design.BuildRequest) :
    x.building d file request = x.building d file' request := by
  simp only [Design.building, Design.absoluteText, same]

/-! ### The project file -/

/-- The name of a project file is the name of an entry if the name of the project has no slash. -/
theorem isName_projectFile {name : String} (single : '/' ∉ name.toList) :
    Path.IsName (name ++ ".xpr") ∧ name ++ ".xpr" ≠ "." := by
  have long : ∀ s : String, s.toList.length < 4 → name ++ ".xpr" ≠ s := by
    rintro s short rfl
    simp at short
  refine ⟨⟨long _ (by decide), ?_⟩, long _ (by decide)⟩
  simpa [or_imp] using single

/-- The absolute form of the project file in a folder is the project file in the absolute form of
the folder. -/
theorem absolute?_projectFile {d : Disk} {p : Project} (single : '/' ∉ p.name.toList)
    {folder top : Path} (htop : folder.absolute? d.cwdPath = some top) :
    (p.projectFile folder).absolute? d.cwdPath = some (p.projectFile top) := by
  obtain ⟨legal, notDot⟩ := isName_projectFile single
  unfold projectFile
  rw [Path.absolute?_child d.isAbsolute_cwdPath (Path.text_ne_of_absolute? htop) legal notDot, htop]
  rfl

/-! ### Both scripts -/

/-- If a call wrote a script, the script starts with a command. -/
def Starts (outcome : Disk × Report Path) (c : Script.Command) : Prop :=
  ∀ script, outcome.2.result = .ok script →
    ∃ rest, outcome.1.readText script = .ok (Script.text (c :: rest))

/-- If two calls both wrote a script, they wrote the same text. -/
def SameScript (outcome outcome' : Disk × Report Path) : Prop :=
  ∀ script script', outcome.2.result = .ok script → outcome'.2.result = .ok script' →
    ∃ text, outcome.1.readText script = .ok text ∧ outcome'.1.readText script' = .ok text

/-- Creating and building a project in a folder speak of the folder `top` and of the project file in
it, and of no spelling of the folder. -/
structure Agree (p : Project) (folder : Path) (d : Disk) (top : Path) : Prop where
  /-- `top` is the absolute form of the folder. -/
  absolute : folder.absolute? d.cwdPath = some top ∧ top.isAbsolute = true
  /-- The script of creation makes the project in `top`. -/
  created : Starts (p.createScript folder d) (.createProject p.name top.tclText p.design.part)
  /-- The script of building opens the project file in `top`. -/
  opened : ∀ request,
    Starts (p.buildScript folder request d) (.openProject (p.projectFile top).tclText)
  /-- Nothing is built without the project file. -/
  tested : d.pathExists (p.projectFile folder) = false → ∀ request,
    p.buildScript folder request d = (d, .fail (.projectFileNotFound (p.projectFile folder)))
  /-- The file that is looked for is the project file in `top`. -/
  file : d.place (p.projectFile folder) = d.place (p.projectFile top) ∧
    (Disk.textFault? (p.projectFile folder) = none → Disk.textFault? (p.projectFile top) = none →
      d.locate (p.projectFile folder) = d.locate (p.projectFile top))
  /-- Another spelling of the folder gives the same scripts. -/
  respelled : ∀ other, other.absolute? d.cwdPath = some top →
    SameScript (p.createScript folder d) (p.createScript other d) ∧
    ∀ request, SameScript (p.buildScript folder request d) (p.buildScript other request d) ∧
      p.design.building d (p.projectFile folder) request =
        p.design.building d (p.projectFile other) request

/-- Creating and building speak of one project, however its folder is spelled. -/
theorem scripts_agree {d : Disk} (sound : d.Sound) (p : Project) (single : '/' ∉ p.name.toList)
    {folder : Path} (given : folder.text ≠ "") : ∃ top, p.Agree folder d top := by
  obtain ⟨top, htop⟩ := Path.exists_absolute? given d.cwdPath
  have file := absolute?_projectFile single htop
  obtain ⟨legal, -⟩ := isName_projectFile single
  refine ⟨top, ⟨htop, Path.isAbsolute_absolute? d.isAbsolute_cwdPath htop⟩, ?created, ?opened,
    ?tested, ⟨Disk.place_child_eq sound htop legal, Disk.locate_child_eq sound htop legal⟩,
    fun other hother => ⟨?creations, fun request => ⟨?buildings, ?contents⟩⟩⟩
  case created =>
    intro script ok
    obtain ⟨q, commands, hq, made, read⟩ := readText_createScript ok
    obtain rfl := Option.some.inj (htop.symm.trans hq)
    obtain ⟨rest, rfl⟩ := creation_starts made
    exact ⟨rest, read⟩
  case opened =>
    intro request script ok
    obtain ⟨commands, made, read⟩ := readText_buildScript ok
    obtain ⟨q, rest, hq, rfl⟩ := building_starts made
    obtain rfl := Option.some.inj (file.symm.trans hq)
    exact ⟨rest, read⟩
  case tested =>
    intro missing request
    simp [buildScript, missing]
  case creations =>
    intro script script' ok ok'
    obtain ⟨q, commands, hq, made, read⟩ := readText_createScript ok
    obtain ⟨q', commands', hq', made', read'⟩ := readText_createScript ok'
    obtain rfl := Option.some.inj (htop.symm.trans hq)
    obtain rfl := Option.some.inj (hother.symm.trans hq')
    obtain rfl := Except.ok.inj (made.symm.trans made')
    exact ⟨_, read, read'⟩
  case buildings =>
    intro script script' ok ok'
    obtain ⟨commands, made, read⟩ := readText_buildScript ok
    obtain ⟨commands', made', read'⟩ := readText_buildScript ok'
    rw [building_congr _ d (file.trans (absolute?_projectFile single hother).symm)] at made
    obtain rfl := Except.ok.inj (made.symm.trans made')
    exact ⟨_, read, read'⟩
  case contents =>
    exact building_congr _ d (file.trans (absolute?_projectFile single hother).symm) request

/-- The disk after the tool has made the project in the folder. -/
def ready : Disk :=
  occupied.put ["work", "b", "p.xpr"] (.file (.text "") false)

/-- A folder with `.` and slashes in excess, in which a project is built. -/
theorem ready_scripts_agree :
    (∃ top, bare.Agree ⟨".//b/."⟩ ready top) ∧
      (bare.buildScript ⟨".//b/."⟩ ⟨true, 12, none⟩ ready).2.result =
        .ok ⟨".//b/./build_vivado_project.tcl"⟩ :=
  ⟨scripts_agree (.of_entries (by decide) (by decide)) bare (by decide) (by decide), by rfl⟩

end Project

end FpgaProject
