import FpgaProject.Proofs.Project.Scripts

/-!
When a project runs its tool, and on what.

To create or to build a project is to write its script and to run the tool on the script. A runner
that keeps a record of its runs (`Runner.recorded`) does what the runner itself does, so the record
of a call tells which runs there were: none if the script was not written, and otherwise one, with
the tool of the project and the script, on the disk that the writing has left (`RunsAfter`). Main
statement: `tool_runs_after_script`, of creating and of building alike. The call that builds asks for
a place of the results before it looks for anything on the disk, so there the two entry points fail
in different words, but in the same cases.
-/

namespace FpgaProject

variable {σ : Type}

/-- A run of a tool on a script, with the disk that it finds. -/
structure Run where
  tool : String
  script : Path
  found : Disk

/-- The runner, with a record of its runs beside its own state. -/
def Runner.recorded (runner : Runner σ) : Runner (σ × List Run) := fun tool script d s =>
  let outcome := runner tool script d s.1
  ((outcome.1.1, outcome.1.2, s.2 ++ [⟨tool, script, d⟩]), outcome.2)

namespace Project

/-- What a call with a runner comes to that runs the tool once a script has been written. -/
structure RunsAfter (p : Project) (written : Disk × Report Path) (runner : Runner σ)
    (call : {τ : Type} → Runner τ → τ → (Disk × τ) × Report Unit) : Prop where
  /-- The record of the runs changes nothing. -/
  unobserved : ∀ s runs, let recorded := call runner.recorded (s, runs)
    ((recorded.1.1, recorded.1.2.1), recorded.2) = call runner s
  /-- The tool is run exactly if there is a script. -/
  ran : ∀ s runs,
    (call runner.recorded (s, runs)).1.2.2 ≠ runs ↔ ∃ script, written.2.result = .ok script
  /-- It is run once, with the tool of the project, on the disk that holds the script. -/
  once : ∀ script, written.2.result = .ok script → ∀ s runs,
    (call runner.recorded (s, runs)).1.2.2 = runs ++ [⟨p.tool, script, written.1⟩]
  /-- The rest is left to the tool; if it fails, the call says so. -/
  left : ∀ script, written.2.result = .ok script → ∀ s,
    let outcome := runner p.tool script written.1 s
    (call runner s).1 = outcome.1 ∧
    ((call runner s).2.result = .ok () ↔ outcome.2.result = .ok ()) ∧
    ∀ cause, outcome.2.result = .error cause →
      (call runner s).2.result = .error (.toolFailed cause) ∧
      ∀ coloured, (Error.toolFailed cause).message coloured =
        "failed to execute vivado process: " ++ Text.lowered (cause.message coloured)
  /-- Without a script the call fails, and what the writing has left stays. -/
  failed : ∀ e, written.2.result = .error e → ∀ s,
    (call runner s).1 = (written.1, s) ∧ ∃ e', (call runner s).2.result = .error e'

/-- An error that is not one of the tool is one of the writing. -/
theorem RunsAfter.error_of_written {p : Project} {written : Disk × Report Path} {runner : Runner σ}
    {call : {τ : Type} → Runner τ → τ → (Disk × τ) × Report Unit}
    (after : p.RunsAfter written runner call) {s : σ} {e : Error}
    (failed : (call runner s).2.result = .error e) (early : ∀ cause, e ≠ .toolFailed cause) :
    ∃ e', written.2.result = .error e' := by
  cases result : written.2.result with
  | error e' => exact ⟨e', rfl⟩
  | ok script =>
    obtain ⟨-, ended, said⟩ := after.left script result s
    cases outcome : (runner p.tool script written.1 s).2.result with
    | ok _ =>
      rw [ended.mpr outcome] at failed
      cases failed
    | error cause =>
      rw [(said cause outcome).1] at failed
      exact absurd (Except.error.inj failed).symm (early cause)

/-! ### Running a script -/

/-- A run is a run of the runner, and an error of the runner is said in the words of the project. -/
theorem run_eq (p : Project) (runner : Runner σ) (script : Path) (d : Disk) (s : σ) :
    p.run runner script d s =
      let outcome := runner p.tool script d s
      (outcome.1, ⟨outcome.2.events, outcome.2.result.mapError .toolFailed⟩) := by
  unfold run
  split
  · rename_i ran
    rw [ran]
    rfl
  · rename_i ran
    rw [ran]
    rfl

theorem run_recorded (p : Project) (runner : Runner σ) (script : Path) (d : Disk) (s : σ)
    (runs : List Run) :
    p.run runner.recorded script d (s, runs) =
      let outcome := p.run runner script d s
      ((outcome.1.1, outcome.1.2, runs ++ [⟨p.tool, script, d⟩]), outcome.2) := by
  rw [run_eq, run_eq]
  rfl

section

variable {written : Disk × Report Path}

/-- Without a script the tool is not run. -/
theorem runWritten_of_error {e : Error} (failed : written.2.result = .error e) (p : Project)
    (runner : Runner σ) (s : σ) :
    p.runWritten runner written s = ((written.1, s), ⟨written.2.events, .error e⟩) := by
  obtain ⟨d, events, result⟩ := written
  cases failed
  rfl

/-- With a script the tool is run on it. -/
theorem runWritten_of_ok {script : Path} (ok : written.2.result = .ok script) (p : Project)
    (runner : Runner σ) (s : σ) :
    p.runWritten runner written s =
      let outcome := p.run runner script written.1 s
      (outcome.1, outcome.2.after written.2.events) := by
  obtain ⟨d, events, result⟩ := written
  cases ok
  rfl

/-- Running what has been written runs the tool once, if there is a script. -/
theorem runsAfter_runWritten (p : Project) (written : Disk × Report Path) (runner : Runner σ) :
    p.RunsAfter written runner fun r s => p.runWritten r written s := by
  cases result : written.2.result with
  | error e =>
    have call {τ : Type} (r : Runner τ) (t : τ) :
        p.runWritten r written t = ((written.1, t), ⟨written.2.events, .error e⟩) :=
      runWritten_of_error result p r t
    constructor
    case unobserved =>
      intro s runs
      simp only [call]
    case ran =>
      intro s runs
      simp [call, result]
    case once =>
      intro script ok
      rw [result] at ok
      cases ok
    case left =>
      intro script ok
      rw [result] at ok
      cases ok
    case failed =>
      intro e' _ s
      rw [call]
      exact ⟨rfl, e, rfl⟩
  | ok script =>
    have call {τ : Type} (r : Runner τ) (t : τ) : p.runWritten r written t =
        let outcome := p.run r script written.1 t
        (outcome.1, outcome.2.after written.2.events) :=
      runWritten_of_ok result p r t
    constructor
    case unobserved =>
      intro s runs
      simp only [call, run_recorded]
    case ran =>
      intro s runs
      simp [call, run_recorded, result]
    case once =>
      intro script' ok s runs
      obtain rfl : script = script' := Except.ok.inj (result.symm.trans ok)
      simp only [call, run_recorded]
    case left =>
      intro script' ok s
      obtain rfl : script = script' := Except.ok.inj (result.symm.trans ok)
      simp only [call, run_eq, Report.after]
      cases (runner p.tool script written.1 s).2.result with
      | ok _ => exact ⟨trivial, by simp [Except.mapError], fun cause said => by cases said⟩
      | error cause =>
        refine ⟨trivial, by simp [Except.mapError], ?_⟩
        intro cause' said
        cases said
        exact ⟨rfl, fun coloured => rfl⟩
    case failed =>
      intro e failed
      rw [result] at failed
      cases failed

end

/-! ### Creating and building -/

/-- Without a place for the results no script of building is written. -/
theorem buildScript_of_lacksOutput {request : Design.BuildRequest}
    (lacks : request.lacksOutput = true) (p : Project) (folder : Path) (d : Disk) :
    ∃ e, p.buildScript folder request d = (d, .fail e) := by
  rcases p.buildScript_cases folder request d with failed | ⟨commands, x, -, made, -⟩
  · exact failed
  · have open_ : request.synthesisOnly = false ∧ request.output = none := by
      simpa [Design.BuildRequest.lacksOutput] using lacks
    simp [Design.building, Design.absoluteOutput, lacks, open_.2, bind, Except.bind] at made

theorem runsAfter_build (p : Project) (folder : Path) (request : Design.BuildRequest) (d : Disk)
    (runner : Runner σ) :
    p.RunsAfter (p.buildScript folder request d) runner
      fun r s => p.build r folder request d s := by
  cases lacks : request.lacksOutput with
  | false =>
    have call {τ : Type} (r : Runner τ) (t : τ) : p.build r folder request d t =
        p.runWritten r (p.buildScript folder request d) t := by
      simp [build, lacks]
    simp only [call]
    exact p.runsAfter_runWritten (p.buildScript folder request d) runner
  | true =>
    obtain ⟨e, failed⟩ := buildScript_of_lacksOutput lacks p folder d
    have call {τ : Type} (r : Runner τ) (t : τ) : p.build r folder request d t =
        ((d, t), .fail (.missingOutput .giveOutput)) := by
      simp [build, lacks]
    rw [failed]
    constructor
    case unobserved =>
      intro s runs
      simp only [call]
    case ran =>
      intro s runs
      simp [call, Report.fail]
    case once =>
      intro script ok
      cases ok
    case left =>
      intro script ok
      cases ok
    case failed =>
      intro e' _ s
      rw [call]
      exact ⟨rfl, .missingOutput .giveOutput, rfl⟩

/-- The tool is run exactly if the script is written, when a project is created as when it is built:
once, on that script, and on the disk as the writing has left it. What comes of the call is what the
runner says, or the error of the writing; but a build that is to give results and does not say where
fails for that reason on every disk. -/
theorem tool_runs_after_script (p : Project) (folder : Path) (request : Design.BuildRequest)
    (d : Disk) (runner : Runner σ) :
    (p.RunsAfter (p.createScript folder d) runner fun r s => p.create r folder d s) ∧
    (p.RunsAfter (p.buildScript folder request d) runner fun r s => p.build r folder request d s) ∧
    (∀ e, (p.createScript folder d).2.result = .error e → ∀ s,
      (p.create runner folder d s).2.result = .error e) ∧
    (request.output ≠ none ∨ request.synthesisOnly = true →
      ∀ e, (p.buildScript folder request d).2.result = .error e → ∀ s,
        (p.build runner folder request d s).2.result = .error e) ∧
    (request.output = none → request.synthesisOnly = false → ∀ s,
      p.build runner folder request d s = ((d, s), .fail (.missingOutput .giveOutput))) := by
  refine ⟨p.runsAfter_runWritten (p.createScript folder d) runner,
    p.runsAfter_build folder request d runner, ?created, ?built, ?lacking⟩
  case created =>
    intro e failed s
    rw [create, runWritten_of_error failed]
  case built =>
    intro told e failed s
    have complete : request.lacksOutput = false := by
      rcases told with output | only
      · simp [Design.BuildRequest.lacksOutput, Option.isSome_iff_ne_none, output]
      · simp [Design.BuildRequest.lacksOutput, only]
    rw [build, complete, if_neg Bool.false_ne_true, runWritten_of_error failed]
  case lacking =>
    intro none whole s
    simp [build, Design.BuildRequest.lacksOutput, none, whole]

end Project

end FpgaProject
