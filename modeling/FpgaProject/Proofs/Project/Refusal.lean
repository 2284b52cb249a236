import FpgaProject.Proofs.Project.History
import FpgaProject.Proofs.Project.Running

/-!
Calls that fail before they change anything.

A script is made as a whole before the first directory is made or the first file is written. So a
call that is refused for what is on the disk, or that has no script to write, leaves the disk as it
was (`failures_leave_disk`), whichever path of the project is to blame: creating a project has no
script exactly if the folder or a path of the design is empty (`unscripted_iff`).
-/

namespace FpgaProject

namespace Project

variable {p : Project} {folder : Path} {d : Disk}

/-- There is no script that creates the project in the folder. -/
def Unscripted (p : Project) (folder : Path) (d : Disk) : Prop :=
  ∀ top commands, folder.absolute? d.cwdPath = some top → p.design.creation d top ≠ .ok commands

/-- The script is missing exactly if the folder has no absolute form or a path of the design has
none. -/
theorem unscripted_iff : p.Unscripted folder d ↔ folder.text = "" ∨ p.design.HasEmptyPath := by
  constructor
  · intro unscripted
    by_cases given : folder.text = ""
    · exact .inl given
    · obtain ⟨top, htop⟩ := Path.exists_absolute? given d.cwdPath
      cases made : p.design.creation d top with
      | ok commands => exact absurd made (unscripted top commands htop)
      | error e => exact .inr (Design.creation_eq_error_iff.mp made).1
  · rintro (empty | blank) top commands htop made
    · exact Path.text_ne_of_absolute? htop empty
    · rw [Design.creation_eq_error_iff.mpr ⟨blank, rfl⟩] at made
      cases made

/-- Without a script, creating a project fails and changes nothing, whether or not the folder is
found. -/
theorem createScript_of_unscripted (unscripted : p.Unscripted folder d) :
    ∃ e, p.createScript folder d = (d, .fail e) := by
  rcases p.createScript_inv folder d with ⟨-, refused⟩ | ⟨-, refused | ⟨top, htop, call⟩⟩
  · exact ⟨_, refused⟩
  · exact ⟨_, refused⟩
  · rcases p.createAt_inv top d with ⟨e, -, refused⟩ | ⟨commands, made, -⟩
    · exact ⟨e, call.trans refused⟩
    · exact absurd made (unscripted top commands htop)

/-- A project whose folder is said to be there has changed nothing. -/
theorem unchanged_of_pathExists {path : Path} {hint : Hint}
    (refused : (p.createScript folder d).2.result = .error (.pathExists path hint)) :
    (p.createScript folder d).1 = d := by
  rcases error_of_createScript refused with ⟨there, -⟩ | ⟨-, f, other⟩
  · simp [createScript, there]
  · cases other

/-- Without a script, building a project has changed nothing. -/
theorem unchanged_of_buildScript {request : Design.BuildRequest} {e : Error}
    (failed : (p.buildScript folder request d).2.result = .error e) :
    (p.buildScript folder request d).1 = d := by
  rcases p.buildScript_cases folder request d with
    ⟨e', refused⟩ | ⟨commands, x, -, -, written, -⟩
  · rw [refused]
  · rw [written] at failed
    cases failed

/-- What fails before anything is written leaves the disk as it was. Creating a project does so if
the folder is said to be there, and if there is no script for it: that is, if the folder or a path of
the design is empty. Building a project does so whenever it writes no script, and with a runner as
long as the error is not one of the tool; the tool has not been run then. -/
theorem failures_leave_disk (p : Project) (folder : Path) (request : Design.BuildRequest) (d : Disk)
    {σ : Type} (runner : Runner σ) :
    (∀ path hint, (p.createScript folder d).2.result = .error (.pathExists path hint) →
      (p.createScript folder d).1 = d) ∧
    (p.Unscripted folder d → ∃ e, p.createScript folder d = (d, .fail e)) ∧
    (p.Unscripted folder d ↔ folder.text = "" ∨ p.design.HasEmptyPath) ∧
    (∀ e, (p.buildScript folder request d).2.result = .error e →
      (p.buildScript folder request d).1 = d) ∧
    ∀ s runs e, (p.build runner.recorded folder request d (s, runs)).2.result = .error e →
      (∀ cause, e ≠ .toolFailed cause) →
      (p.build runner.recorded folder request d (s, runs)).1 = (d, s, runs) := by
  refine ⟨fun path hint => unchanged_of_pathExists, createScript_of_unscripted, unscripted_iff,
    fun e => unchanged_of_buildScript, ?_⟩
  intro s runs e failed early
  have call := p.runsAfter_build folder request d runner.recorded
  obtain ⟨e', unwritten⟩ := call.error_of_written failed early
  obtain ⟨world, -⟩ := call.failed e' unwritten (s, runs)
  rw [world, unchanged_of_buildScript unwritten]

end Project

end FpgaProject
