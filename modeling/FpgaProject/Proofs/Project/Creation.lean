import FpgaProject.Project
import FpgaProject.Proofs.Disk.Making

/-!
What creating a project leaves alone.

Creating a project refuses a folder that exists, makes the folder and writes into it. The check looks
the path up as it was given, while the folder is made and written under the absolute form of the
path; `createScript_cases` says all that can come of it. So what was there before is left alone
(`Project.Spares`) exactly as long as the check overlooks no directory, and
`createScript_spares_iff` says when that is: the path must not leave a name that is no directory by
`..`, and its text must be one that can be looked up.
-/

namespace FpgaProject

namespace Project

/-- Creating a project wrote into no directory that was there, and kept all files. -/
def Spares (p : Project) (folder : Path) (d : Disk) : Prop :=
  (∀ script, (p.createScript folder d).2.result = .ok script →
    ∃ dir, (p.createScript folder d).1.locate script = .ok (dir ++ [creationFile]) ∧
      d.entryAt? dir = none) ∧
  ∀ l contents executable, d.entryAt? l = some (.file contents executable) →
    (p.createScript folder d).1.entryAt? l = some (.file contents executable)

/-- The disk is as it was, or it has the constraint on clock crossings in a directory. -/
def Crossed (dir : Location) (d d' : Disk) : Prop :=
  d' = d ∨ ∃ x, d' = d.put (dir ++ [crossingsFile]) (.file (.text crossingsText) x)

theorem Crossed.cwd_eq {dir : Location} {d d' : Disk} (crossed : Crossed dir d d') :
    d'.cwd = d.cwd := by
  rcases crossed with rfl | ⟨x, rfl⟩ <;> rfl

theorem writeCrossings_cases (p : Project) (d : Disk) (folder : Path) :
    (∃ f, p.writeCrossings d folder = (d, .error f)) ∨
      ((p.writeCrossings d folder).2 = .ok () ∧
        Crossed (d.place folder) d (p.writeCrossings d folder).1 ∧
        d.Keeps (p.writeCrossings d folder).1) := by
  unfold writeCrossings
  split
  · rcases d.writeText_child folder crossingsFile (by decide) crossingsText with
      ⟨f, failed⟩ | ⟨x, wrote, -, keeps, -⟩
    · exact .inl ⟨f, failed⟩
    · rw [wrote]
      exact .inr ⟨rfl, .inr ⟨x, rfl⟩, keeps⟩
  · exact .inr ⟨rfl, .inl rfl, (Disk.Grows.refl d).keeps⟩

theorem writeScript_fst (d : Disk) (script : Path) (commands : List Script.Command) :
    (writeScript d script commands).1 = (d.writeText script (Script.text commands)).1 := by
  unfold writeScript
  split <;> simp_all

/-- What is written into the folder once it is there. -/
def fill (p : Project) (d : Disk) (folder : Path) (commands : List Script.Command) :
    Disk × Report Path :=
  match p.writeCrossings d folder with
  | (d, .error f) => (d, .fail (.fault f))
  | (d, .ok ()) => writeScript d (folder.child creationFile) commands

/-- Filling a folder writes the constraint, the script and nothing else; without the script it
fails. -/
theorem fill_cases (p : Project) (d : Disk) (folder : Path) (commands : List Script.Command) :
    ∃ d₂, Crossed (d.place folder) d d₂ ∧
      ((∃ e, (p.fill d folder commands).2.result = .error e ∧
          (p.fill d folder commands).1 = d₂) ∨
        ∃ x, (p.fill d folder commands).2.result = .ok (folder.child creationFile) ∧
          (p.fill d folder commands).1 =
            d₂.put (d.place folder ++ [creationFile]) (.file (.text (Script.text commands)) x) ∧
          (p.fill d folder commands).1.locate (folder.child creationFile) =
            .ok (d.place folder ++ [creationFile])) := by
  rcases p.writeCrossings_cases d folder with ⟨f, failed⟩ | ⟨ok, crossed, keeps⟩
  · refine ⟨d, .inl rfl, .inl ⟨.fault f, ?_, ?_⟩⟩ <;> simp [fill, failed, Report.fail]
  · obtain ⟨d₂, result⟩ : ∃ d₂, p.writeCrossings d folder = (d₂, .ok ()) := ⟨_, Prod.ext rfl ok⟩
    rw [result] at crossed keeps
    refine ⟨d₂, crossed, ?_⟩
    rcases d₂.writeText_child folder creationFile (by decide)
      (Script.text commands) with ⟨f, failed⟩ | ⟨x, wrote, -, -, found⟩
    · left
      exact ⟨.fault f, by simp [fill, result, writeScript, failed, Report.fail],
        by simp [fill, result, writeScript, failed]⟩
    · rw [keeps.place_eq folder] at wrote found
      right
      refine ⟨x, ?_, ?_, ?_⟩
      · simp [fill, result, writeScript, wrote]
      · simp [fill, result, writeScript, wrote]
      · simpa [fill, result, writeScript, wrote] using found

/-! ### What creating a project comes to -/

/-- What creating a project does once no folder was found. -/
def createAt (p : Project) (top : Path) (d : Disk) : Disk × Report Path :=
  match p.design.creation d top with
  | .error e => (d, .fail e)
  | .ok commands =>
    match d.makeDirectories top with
    | (d, .error f) => (d, .fail (.fault f))
    | (d, .ok ()) => p.fill d top commands

theorem createScript_eq_createAt {folder top : Path} {d : Disk}
    (missing : d.pathExists folder = false) (htop : folder.absolute? d.cwdPath = some top)
    (p : Project) : p.createScript folder d = p.createAt top d := by
  simp only [createScript, missing, htop, createAt, fill]
  rfl

/-- Creating a project refuses a folder that is found and an empty path, or goes on under the
absolute form of the folder. -/
theorem createScript_inv (p : Project) (folder : Path) (d : Disk) :
    (d.pathExists folder = true ∧
      p.createScript folder d = (d, .fail (.pathExists folder .buildInstead))) ∨
    (d.pathExists folder = false ∧
      (p.createScript folder d = (d, .fail (.fault .emptyPath)) ∨
        ∃ top, folder.absolute? d.cwdPath = some top ∧
          p.createScript folder d = p.createAt top d)) := by
  cases there : d.pathExists folder with
  | true => exact .inl ⟨rfl, by simp [createScript, there]⟩
  | false =>
    refine .inr ⟨rfl, ?_⟩
    cases htop : folder.absolute? d.cwdPath with
    | none => exact .inl (by simp [createScript, there, htop])
    | some top => exact .inr ⟨top, rfl, createScript_eq_createAt there htop p⟩

/-- Without a folder there, creating a project fails for want of a script or of directories, or it
fills a folder that it has made. -/
theorem createAt_inv (p : Project) (top : Path) (d : Disk) :
    (∃ e, p.design.creation d top = .error e ∧ p.createAt top d = (d, .fail e)) ∨
    ∃ commands, p.design.creation d top = .ok commands ∧
      ((∃ f, p.createAt top d = ((d.makeDirectories top).1, .fail (.fault f))) ∨
        ((d.makeDirectories top).2 = .ok () ∧
          p.createAt top d = p.fill (d.makeDirectories top).1 top commands)) := by
  cases made : p.design.creation d top with
  | error e => exact .inl ⟨e, rfl, by simp [createAt, made]⟩
  | ok commands =>
    refine .inr ⟨commands, rfl, ?_⟩
    cases directories : d.makeDirectories top with
    | mk d₁ result =>
      cases result with
      | error f => exact .inl ⟨f, by simp [createAt, made, directories]⟩
      | ok _ => exact .inr ⟨rfl, by simp [createAt, made, directories]⟩

/-- Creating a project fails, having made directories at most, or it fills a folder that it has
made. -/
theorem createScript_cases (p : Project) (folder : Path) (d : Disk) :
    (∃ e, (p.createScript folder d).2.result = .error e ∧ d.Grows (p.createScript folder d).1) ∨
    ∃ q commands d₁, d.pathExists folder = false ∧ folder.absolute? d.cwdPath = some q ∧
      p.design.creation d q = .ok commands ∧ d.makeDirectories q = (d₁, .ok ()) ∧
      p.createScript folder d = p.fill d₁ q commands := by
  have failing : ∀ {d' e}, p.createScript folder d = (d', .fail e) → d.Grows d' →
      ∃ e, (p.createScript folder d).2.result = .error e ∧
        d.Grows (p.createScript folder d).1 := by
    intro d' e call grows
    rw [call]
    exact ⟨e, rfl, grows⟩
  rcases p.createScript_inv folder d with ⟨-, call⟩ | ⟨missing, call | ⟨q, hq, call⟩⟩
  · exact .inl (failing call (.refl d))
  · exact .inl (failing call (.refl d))
  · rcases p.createAt_inv q d with ⟨e, -, failed⟩ | ⟨commands, made, ⟨f, failed⟩ | ⟨ok, filled⟩⟩
    · exact .inl (failing (call.trans failed) (.refl d))
    · exact .inl (failing (call.trans failed) (d.grows_makeDirectories q))
    · exact .inr ⟨q, commands, _, missing, hq, made, Prod.ext rfl ok, call.trans filled⟩

/-! ### Files that were there -/

theorem Crossed.entryAt?_eq {d₁ d₂ : Disk} {dir l : Location} (crossed : Crossed dir d₁ d₂)
    (apart : l ≠ dir ++ [crossingsFile]) : d₂.entryAt? l = d₁.entryAt? l := by
  rcases crossed with rfl | ⟨x, rfl⟩
  · rfl
  · rw [Disk.entryAt?_put d₁ (by simp), if_neg apart]

/-- All that can come of creating a project, by the place of its folder. -/
theorem createScript_outcomes {d : Disk} (sound : d.Sound) (p : Project) (folder : Path) :
    (∃ e, (p.createScript folder d).2.result = .error e ∧ d.Grows (p.createScript folder d).1) ∨
    d.pathExists folder = false ∧ ∃ d₁ d₂, d.Grows d₁ ∧
      d₁.entryAt? (d.place folder) = some .directory ∧ Crossed (d.place folder) d₁ d₂ ∧
      ((∃ e, (p.createScript folder d).2.result = .error e ∧ (p.createScript folder d).1 = d₂) ∨
        ∃ script contents x, (p.createScript folder d).2.result = .ok script ∧
          (p.createScript folder d).1 =
            d₂.put (d.place folder ++ [creationFile]) (.file contents x) ∧
          (p.createScript folder d).1.locate script = .ok (d.place folder ++ [creationFile])) := by
  rcases p.createScript_cases folder d with
    failed | ⟨q, commands, d₁, missing, hq, -, made, call⟩
  · exact .inl failed
  · have absolute : q.isAbsolute = true := Path.isAbsolute_absolute? d.isAbsolute_cwdPath hq
    have ne := Path.text_ne_of_isAbsolute absolute
    have place : d.place q = d.place folder := Disk.place_of_absolute? sound hq
    have grows : d.Grows d₁ := by simpa [made] using d.grows_makeDirectories q
    have there : d₁.entryAt? (d.place folder) = some .directory := by
      simpa [made, place] using Disk.entryAt?_makeDirectories (d := d) ne (by rw [made])
    obtain ⟨d₂, crossed, outcome⟩ := p.fill_cases d₁ q commands
    rw [grows.keeps.place_eq q, place] at crossed outcome
    rw [call]
    refine .inr ⟨missing, d₁, d₂, grows, there, crossed, ?_⟩
    rcases outcome with failed | ⟨x, ok, after, found⟩
    · exact .inl failed
    · exact .inr ⟨_, _, x, ok, after, found⟩

/-- Unless a directory is overlooked, the folder is new, and nothing that was there is touched. -/
theorem spares_of_not_overlooks {d : Disk} (sound : d.Sound) {p : Project} {folder : Path}
    (seen : ¬ d.Overlooks folder) : p.Spares folder d := by
  rcases createScript_outcomes sound p folder with
    ⟨e, failed, grows⟩ | ⟨missing, d₁, d₂, grows, there, crossed, outcome⟩
  · refine ⟨fun script ok => ?_, fun l contents x file => grows.entryAt?_eq_some file⟩
    rw [failed] at ok
    cases ok
  · have new : d.entryAt? (d.place folder) = none := by
      rcases grows.added (d.place folder) with same | ⟨absent, -⟩
      · exact absurd ⟨missing, same ▸ there⟩ seen
      · exact absent
    -- A file in the folder would stand in a directory that was there.
    have apart : ∀ l e name, d.entryAt? l = some e → l ≠ d.place folder ++ [name] := by
      rintro l e name file rfl
      rw [sound.inDirectory _ _ _ file] at new
      cases new
    constructor
    · intro script ok
      rcases outcome with ⟨e, failed, -⟩ | ⟨script', contents, x, ok', -, found⟩
      · rw [failed] at ok
        cases ok
      · obtain rfl : script' = script := Except.ok.inj (ok'.symm.trans ok)
        exact ⟨_, found, new⟩
    · intro l contents executable file
      have kept := crossed.entryAt?_eq (apart l _ crossingsFile file)
      rcases outcome with ⟨e, -, after⟩ | ⟨script, contents', x, -, after, -⟩
      · rw [after, kept, grows.entryAt?_eq_some file]
      · rw [after, Disk.entryAt?_put d₂ (by simp), if_neg (apart l _ creationFile file), kept,
          grows.entryAt?_eq_some file]

/-- The constraint on clock crossings was written over a file of that name. -/
def Overwrites (p : Project) (folder : Path) (d : Disk) : Prop :=
  ∃ contents executable,
    d.entryAt? (d.place folder ++ [crossingsFile]) = some (.file contents executable) ∧
    (p.createScript folder d).1.entryAt? (d.place folder ++ [crossingsFile]) ≠
      some (.file contents executable)

/-- A call that fails keeps all files but the one that the constraint on clock crossings is written
to. -/
theorem kept_of_error {d : Disk} (sound : d.Sound) {p : Project} {folder : Path} {e : Error}
    (failed : (p.createScript folder d).2.result = .error e) {l : Location}
    (apart : l ≠ d.place folder ++ [crossingsFile]) {contents : Contents} {executable : Bool}
    (file : d.entryAt? l = some (.file contents executable)) :
    (p.createScript folder d).1.entryAt? l = some (.file contents executable) := by
  rcases createScript_outcomes sound p folder with
    ⟨e, -, grows⟩ | ⟨missing, d₁, d₂, grows, there, crossed, outcome⟩
  · exact grows.entryAt?_eq_some file
  · rcases outcome with ⟨e, -, after⟩ | ⟨script, contents', x, ok, -, -⟩
    · rw [after, crossed.entryAt?_eq apart, grows.entryAt?_eq_some file]
    · rw [failed] at ok
      cases ok

/-- Creating a project leaves alone what was there exactly if its check of the path overlooks no
directory; a call that fails all the same does so, unless it has overwritten the constraint on clock
crossings. A directory is overlooked exactly if the text of the path cannot be looked up, or if the
path leaves a name that is no directory by `..`. -/
theorem createScript_spares_iff {d : Disk} (sound : d.Sound) (p : Project) (folder : Path) :
    (∀ script, (p.createScript folder d).2.result = .ok script →
      (p.Spares folder d ↔ ¬ d.Overlooks folder)) ∧
    (∀ e, (p.createScript folder d).2.result = .error e →
      (p.Spares folder d ↔ ¬ (d.Overlooks folder ∧ p.Overwrites folder d))) ∧
    (d.Overlooks folder ↔ d.entryAt? (d.place folder) = some .directory ∧
      (Disk.textFault? folder ≠ none ∨ d.Strays folder)) := by
  refine ⟨fun script ok => ⟨?_, spares_of_not_overlooks sound⟩, fun e failed => ⟨?_, ?_⟩,
    Disk.overlooks_iff sound folder⟩
  · rintro ⟨fresh, -⟩ ⟨-, directory⟩
    obtain ⟨dir, found, absent⟩ := fresh script ok
    rcases createScript_outcomes sound p folder with
      ⟨e, failed, -⟩ | ⟨missing, d₁, d₂, grows, there, crossed, outcome⟩
    · rw [failed] at ok
      cases ok
    · rcases outcome with ⟨e, failed, -⟩ | ⟨script', contents, x, ok', -, found'⟩
      · rw [failed] at ok
        cases ok
      · obtain rfl : script' = script := Except.ok.inj (ok'.symm.trans ok)
        obtain ⟨rfl, -⟩ := List.append_inj' (Except.ok.inj (found.symm.trans found')) rfl
        rw [directory] at absent
        cases absent
  · rintro ⟨-, kept⟩ ⟨-, contents, executable, file, lost⟩
    exact lost (kept _ _ _ file)
  · intro harmless
    by_cases seen : d.Overlooks folder
    · refine ⟨fun script ok => ?_, fun l contents executable file => ?_⟩
      · rw [failed] at ok
        cases ok
      · by_cases here : l = d.place folder ++ [crossingsFile]
        · by_contra lost
          subst here
          exact harmless ⟨seen, contents, executable, file, lost⟩
        · exact kept_of_error sound failed here file
    · exact spares_of_not_overlooks sound seen

/-! ### A folder that is overlooked -/

/-- A working directory with a folder that a project was created in before. -/
def occupied : Disk where
  entries := [(["work"], .directory), (["work", "b"], .directory),
    (["work", "b", creationFile], .file (.text "kept") false)]
  distinct := by decide
  cwd := ["work"]

/-- A project without modules. -/
def bare : Project :=
  ⟨defaultTool, none, true, ⟨"p", [], "part", "p_top", none, .empty, [], none, []⟩⟩

theorem sound_occupied : occupied.Sound :=
  .of_entries (by decide) (by decide)

/-- Next to the folder, a new one is made. -/
theorem spares_next_to_occupied : occupied.Sound ∧ bare.Spares ⟨"./c/"⟩ occupied :=
  ⟨sound_occupied,
    ((createScript_spares_iff sound_occupied bare ⟨"./c/"⟩).1 ⟨"/work/c/create_vivado_project.tcl"⟩
      (by rfl)).mpr (by decide +kernel)⟩

/-- Under a path that goes through a name that is not there, it is taken, and the script in it is
overwritten. -/
theorem not_spares_through_missing : occupied.Sound ∧ ¬ bare.Spares ⟨"a/../b"⟩ occupied := by
  refine ⟨sound_occupied, fun spares => ?_⟩
  have lost : (bare.createScript ⟨"a/../b"⟩ occupied).1.entryAt? ["work", "b", creationFile] ≠
      some (.file (.text "kept") false) := by decide +kernel
  exact lost (spares.2 _ _ _ (by decide))

end Project

end FpgaProject
