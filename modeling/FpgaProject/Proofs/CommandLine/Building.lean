import FpgaProject.CommandLine.Execute
import FpgaProject.Proofs.Config.Generation
import FpgaProject.Proofs.Project.Reach
import FpgaProject.Proofs.Project.Running
import FpgaProject.Proofs.Script.Starting

/-!
What the command that builds a project says of its script.

The options of the command decide what its script holds, and they decide once more what is said when
all went well. The two agree: a script that can be made writes the results exactly if it has the
stage of implementation, and it has both unless only synthesis is asked for
(`Design.exists_of_building_ok`). All went well exactly if the tool could be started on that script
and ended with the code zero (`Starts`); then, and only then, the command says one of two things
(`execute_cases`). Main statement: `build_reports_script`.
-/

namespace FpgaProject

open Script

/-! ### What a script holds -/

namespace Script

/-- A script that writes both results. -/
def Exports (commands : List Command) : Prop :=
  (∃ file, .writeBitstream file ∈ commands) ∧ ∃ file, .writeHardware file ∈ commands

/-- A script that has some part of the stage of implementation. -/
def Implements (commands : List Command) : Prop :=
  ∃ c ∈ Design.implementationPlan.commands, c ≠ .blank ∧ c ∈ commands

/-- A text with a line that starts in some way. -/
def HasLine (front text : String) : Prop :=
  ∃ line ∈ Text.splitAt '\n' text.toList, startsWith front line = true

def bitstreamFront : String := "write_bitstream "

def hardwareFront : String := "write_hwdef "

def implementationFront : String := "launch_runs impl_1"

theorem hasLine_text_iff {front : String} (given : front ≠ "") {commands : List Command}
    (oneLine : ∀ c ∈ commands, ∀ t ∈ c.operands, OneLine t) :
    HasLine front (text commands) ↔ linesStarting front commands ≠ [] := by
  have same := filter_splitAt_text given oneLine
  rw [Ne, ← List.map_eq_nil_iff (f := String.toList), ← same, List.filter_eq_nil_iff]
  simp [HasLine]

theorem linesStarting_ne_nil_iff {front : String} {commands : List Command} :
    linesStarting front commands ≠ [] ↔ ∃ c ∈ commands, linesStarting front [c] ≠ [] := by
  rw [linesStarting_eq_flatMap, Ne, List.flatMap_eq_nil_iff]
  simp

/-- Only the commands that write the results have lines that start as the fronts of these do. -/
theorem linesStarting_of_not_writes {front : String} (like : ['w', 'r'] <+: front.toList)
    {c : Command} (bitstream : ∀ file, c ≠ .writeBitstream file)
    (hardware : ∀ file, c ≠ .writeHardware file) : linesStarting front [c] = [] := by
  obtain ⟨rest, split⟩ := like
  cases c with
  | readConstraint reference file =>
    cases reference <;> simp [linesStarting, lines, Command.lines, startsWith, ← split]
  | writeBitstream file => exact absurd rfl (bitstream file)
  | writeHardware file => exact absurd rfl (hardware file)
  | _ => simp [linesStarting, lines, Command.lines, complainIf, startsWith, ← split]

theorem linesStarting_bitstream (c : Command) :
    linesStarting bitstreamFront [c] ≠ [] ↔ ∃ file, c = .writeBitstream file := by
  cases c with
  | writeBitstream file => simp [linesStarting, lines, Command.lines, bitstreamFront, startsWith]
  | writeHardware file => simp [linesStarting, lines, Command.lines, bitstreamFront, startsWith]
  | _ => rw [linesStarting_of_not_writes (by simp [bitstreamFront]) (by simp) (by simp)]; simp

theorem linesStarting_hardware (c : Command) :
    linesStarting hardwareFront [c] ≠ [] ↔ ∃ file, c = .writeHardware file := by
  cases c with
  | writeBitstream file => simp [linesStarting, lines, Command.lines, hardwareFront, startsWith]
  | writeHardware file => simp [linesStarting, lines, Command.lines, hardwareFront, startsWith]
  | _ => rw [linesStarting_of_not_writes (by simp [hardwareFront]) (by simp) (by simp)]; simp

/-- Where no text in a script holds a line feed, its lines tell whether it writes the results. -/
theorem exports_iff_hasLine {commands : List Command}
    (oneLine : ∀ c ∈ commands, ∀ t ∈ c.operands, OneLine t) :
    Exports commands ↔
      HasLine bitstreamFront (text commands) ∧ HasLine hardwareFront (text commands) := by
  rw [hasLine_text_iff (by decide) oneLine, hasLine_text_iff (by decide) oneLine,
    linesStarting_ne_nil_iff, linesStarting_ne_nil_iff]
  simp only [linesStarting_bitstream, linesStarting_hardware, Exports]
  refine and_congr ⟨?_, ?_⟩ ⟨?_, ?_⟩
  · exact fun ⟨file, member⟩ => ⟨_, member, file, rfl⟩
  · rintro ⟨_, member, file, rfl⟩
    exact ⟨file, member⟩
  · exact fun ⟨file, member⟩ => ⟨_, member, file, rfl⟩
  · rintro ⟨_, member, file, rfl⟩
    exact ⟨file, member⟩

end Script

namespace Design

variable {x : Design} {d : Disk} {projectFile : Path} {r : BuildRequest} {commands : List Command}

theorem exports_buildCommands {file : String} {threads : Nat} {result : Option String} :
    Exports (buildCommands file threads result) ↔ result.isSome = true := by
  cases result <;>
    simp [Exports, buildCommands, laterCommands, RunPlan.commands]

theorem implements_buildCommands {file : String} {threads : Nat} {result : Option String} :
    Implements (buildCommands file threads result) ↔ result.isSome = true := by
  cases result with
  | none =>
    simp [Implements, buildCommands, laterCommands, RunPlan.commands, implementationPlan,
      synthesisPlan]
  | some result =>
    refine iff_of_true ⟨.launch implementationPlan.run, ?_, by simp, ?_⟩ rfl <;>
      simp [buildCommands, laterCommands, RunPlan.commands]

/-- The line that launches implementation stands in a script of building that has this stage. -/
theorem linesStarting_implementation {file : String} {threads : Nat} {result : Option String} :
    linesStarting implementationFront (buildCommands file threads result) ≠ [] ↔
      Implements (buildCommands file threads result) := by
  rw [implements_buildCommands]
  cases result with
  | none =>
    simp [linesStarting, lines, Command.lines, complainIf, buildCommands, laterCommands,
      RunPlan.commands, synthesisPlan, implementationFront, startsWith]
  | some result =>
    have launches : linesStarting implementationFront [.launch implementationPlan.run] ≠ [] := by
      simp [linesStarting, lines, Command.lines, implementationPlan, implementationFront,
        startsWith]
    refine iff_of_true (linesStarting_ne_nil_iff.mpr ⟨_, ?_, launches⟩) rfl
    simp [buildCommands, laterCommands, RunPlan.commands]

/-- A script of building that is made goes on after synthesis, to the export of the results, exactly
if more than synthesis is asked for, and then there is a place for the results. -/
theorem exists_of_building_ok (made : x.building d projectFile r = .ok commands) :
    ∃ file result, commands = buildCommands file (min r.threads threadLimit) result ∧
      (result.isSome = true ↔ r.synthesisOnly = false) ∧
      (r.synthesisOnly = false → ∃ output, r.output = some output) := by
  obtain ⟨file, -, rfl⟩ := exists_of_building made
  refine ⟨file.tclText, _, rfl, ?_⟩
  obtain ⟨complete, -⟩ := exists_building_iff.mp ⟨_, made⟩
  cases only : r.synthesisOnly with
  | true => simp [resultText?, only]
  | false =>
    rcases complete with ⟨output, told, given⟩ | ⟨other, -⟩
    · obtain ⟨top, htop⟩ := Path.exists_absolute? given d.cwdPath
      have told : r.output = some output := told
      simp [resultText?, only, told, htop]
    · rw [only] at other
      cases other

end Design

/-! ### Reports without a start of the tool -/

namespace Report

variable {α β : Type} {r : Report α}

/-- No start of the tool is reported, neither one that comes about nor one that does not. -/
def Idle (r : Report α) : Prop :=
  ∀ event ∈ r.events, event.topic ≠ .running

theorem Idle.bind (idle : r.Idle) {f : α → Report β} (each : ∀ a, (f a).Idle) :
    (r >>= f).Idle := by
  cases outcome : r.result with
  | error e =>
    rw [bind_of_error outcome]
    exact idle
  | ok a =>
    rw [bind_of_ok outcome]
    exact List.forall_mem_append.mpr ⟨idle, each a⟩

theorem Idle.after {events : List Event} (before : ∀ event ∈ events, event.topic ≠ .running)
    (idle : r.Idle) : (r.after events).Idle :=
  List.forall_mem_append.mpr ⟨before, idle⟩

end Report

namespace Registry

theorem idle_build (r : Registry) (d : Disk) (c : Candidate) : (r.build d c).Idle := by
  unfold build
  split
  · simp [Report.Idle, Event.topic]
  · dsimp only
    split <;> simp [Report.Idle, Event.topic]

theorem idle_buildAll (r : Registry) (d : Disk) (cs : List Candidate) :
    ∀ seen, (r.buildAll d seen cs).Idle := by
  induction cs with
  | nil => simp [buildAll, Report.Idle]
  | cons c cs ih =>
    intro seen
    refine (Report.Idle.after ?_ (r.idle_build d c)).bind fun m => (ih _).bind fun ms => ?_
    · unfold warnings
      split <;> simp [Event.topic]
    · simp [Report.Idle]

theorem idle_discover (r : Registry) (d : Disk) (roots : List Path)
    (names : Option (List String)) : (r.discover d roots names).Idle :=
  (r.idle_buildAll d _ []).bind fun _ => by simp [Report.Idle, Report.say, Event.topic, bind]

end Registry

/-- To open a project is to read what describes it. -/
theorem idle_openProject (d : Disk) (environment : Option String) (file : Path)
    (name tool : Option String) : (openProject d environment file name tool).Idle := by
  refine Report.Idle.bind (by simp [Report.Idle, Report.ofExcept]) fun c => ?_
  refine Report.Idle.bind (by simp [Report.Idle, Report.ofExcept]) fun p => ?_
  refine Report.Idle.bind (by simp [Report.Idle, Report.say, Event.topic]) fun _ => ?_
  refine (Registry.idle_discover _ d _ _).bind fun ms => ?_
  simp [Report.Idle, Project.assemble, Event.topic]

namespace Project

variable {p : Project} {folder : Path} {request : Design.BuildRequest} {d : Disk}

theorem idle_writeScript (d : Disk) (script : Path) (commands : List Command) :
    (writeScript d script commands).2.Idle := by
  unfold writeScript
  split <;> simp [Report.Idle, Report.fail, Event.topic]

theorem idle_buildScript (p : Project) (folder : Path) (request : Design.BuildRequest) (d : Disk) :
    (p.buildScript folder request d).2.Idle := by
  unfold buildScript
  dsimp only
  split
  · split
    · simp [Report.Idle, Report.fail]
    · exact idle_writeScript _ _ _
  · simp [Report.Idle, Report.fail]

theorem sound_buildScript (sound : d.Sound) : (p.buildScript folder request d).1.Sound := by
  unfold buildScript
  dsimp only
  split
  · split
    · exact sound
    · rw [writeScript_fst]
      exact sound.writeText _ _
  · exact sound

/-- A script of building is written into the folder, and the working directory stays. -/
theorem eq_child_of_written {script : Path}
    (wrote : (p.buildScript folder request d).2.result = .ok script) :
    script = folder.child buildingFile ∧
      (p.buildScript folder request d).1.cwdPath = d.cwdPath := by
  rcases p.buildScript_cases folder request d with
    ⟨e, failed⟩ | ⟨commands, x, -, -, written, after, -⟩
  · rw [failed] at wrote
    cases wrote
  · refine ⟨Except.ok.inj (wrote.symm.trans written), ?_⟩
    rw [after, Disk.cwdPath, Disk.cwd_put]
    rfl

/-- A script of building that has been written is read under its absolute form from everywhere,
unless the text of that is refused. -/
theorem readsAnywhere_buildScript (sound : d.Sound) {script top : Path}
    (wrote : (p.buildScript folder request d).2.result = .ok script)
    (absolute : script.absolute? (p.buildScript folder request d).1.cwdPath = some top)
    (text : Disk.textFault? top = none) :
    ∃ commands, p.design.building d (p.projectFile folder) request = .ok commands ∧
      (p.buildScript folder request d).1.ReadsAnywhere top (Script.text commands) := by
  rcases p.buildScript_cases folder request d with
    ⟨e, failed⟩ | ⟨commands, x, -, made, written, after, -, found⟩
  · rw [failed] at wrote
    cases wrote
  obtain rfl := Except.ok.inj (written.symm.trans wrote)
  have there : (p.buildScript folder request d).1.entryAt? (d.place folder ++ [buildingFile]) =
      some (.file (.text (Script.text commands)) x) := by
    rw [after, Disk.entryAt?_put d (by simp), if_pos rfl]
  have isFile : (p.buildScript folder request d).1.entryAt? (d.place folder ++ [buildingFile]) ≠
      some .directory := by
    simp [there]
  refine ⟨commands, made, Disk.readsAnywhere_of_locate (x := x) ?_ ?_ there⟩
  · exact Path.isAbsolute_absolute? (Disk.isAbsolute_cwdPath _) absolute
  · rw [locate_of_absolute (sound_buildScript sound) found isFile absolute text, found]

/-- With a script of building, to build is to run the tool on it. -/
theorem build_of_written {script : Path}
    (wrote : (p.buildScript folder request d).2.result = .ok script) {σ : Type}
    (runner : Runner σ) (s : σ) :
    p.build runner folder request d s =
      let outcome := runner p.tool script (p.buildScript folder request d).1 s
      (outcome.1, ⟨(p.buildScript folder request d).2.events ++ outcome.2.events,
        outcome.2.result.mapError .toolFailed⟩) := by
  cases lacks : request.lacksOutput with
  | true =>
    obtain ⟨e, failed⟩ := buildScript_of_lacksOutput lacks p folder d
    rw [failed] at wrote
    cases wrote
  | false =>
    rw [build, lacks, if_neg Bool.false_ne_true, runWritten_of_ok wrote, run_eq]
    rfl

end Project

namespace CommandLine

/-! ### Steps of a command -/

section

variable {d : Disk} {opened : Report Project} {x : Execution} {e : Error}

theorem withProject_of_ok {p : Project} (ok : opened.result = .ok p) (act : Project → Execution) :
    withProject d opened act = ((act p).1, (act p).2.after opened.events) := by
  obtain ⟨events, result⟩ := opened
  cases ok
  rfl

theorem withProject_of_error (failed : opened.result = .error e) (act : Project → Execution) :
    withProject d opened act = ((d, {}), ⟨opened.events, .error e⟩) := by
  obtain ⟨events, result⟩ := opened
  cases failed
  rfl

theorem events_scriptWritten (written : Disk × Report Path) :
    (scriptWritten written).2.events = written.2.events := by
  obtain ⟨d, events, _ | _⟩ := written <;> rfl

theorem report_thenPrint (line : String) (x : Execution) : (thenPrint line x).2 = x.2 := by
  obtain ⟨⟨d, screen⟩, events, _ | _⟩ := x <;> rfl

theorem thenPrint_of_ok (ok : x.2.result = .ok ()) (line : String) :
    (thenPrint line x).1 = (x.1.1, x.1.2.print line) := by
  obtain ⟨⟨d, screen⟩, events, result⟩ := x
  cases ok
  rfl

theorem thenPrint_of_error (failed : x.2.result = .error e) (line : String) :
    (thenPrint line x).1 = x.1 := by
  obtain ⟨⟨d, screen⟩, events, result⟩ := x
  cases failed
  rfl

end

/-! ### Starting the tool -/

/-- A start of the tool: the project that it is started for, the script that it is given and the
path of that, the disk that it finds, and what it leaves behind. -/
structure Start where
  project : Project
  commands : List Script.Command
  script : Path
  found : Disk
  left : Aftermath

/-- The line about results that have been written. -/
def exportLine (folder : Path) : String :=
  infoLine ("wrote bitstream and hardware to " ++ folder.text)

def timingLine : String :=
  infoLine "synthesis met the timing limit"

theorem infoLine_inj {a b : String} : infoLine a = infoLine b ↔ a = b := by
  simp [infoLine, ← String.toList_inj]

theorem exportLine_inj {folder other : Path} :
    exportLine folder = exportLine other ↔ folder = other := by
  obtain ⟨a⟩ := folder
  obtain ⟨b⟩ := other
  rw [exportLine, exportLine, infoLine_inj, Path.mk.injEq]
  simp [← String.toList_inj]

theorem exportLine_ne_timingLine (folder : Path) : exportLine folder ≠ timingLine := by
  rw [exportLine, timingLine, Ne, infoLine_inj]
  simp [← String.toList_inj]

theorem infoLine_ne (a : String) : infoLine a ≠ "" := by
  simp [infoLine, ← String.toList_inj]

theorem print_inj {screen : Screen} {a b : String} : screen.print a = screen.print b ↔ a = b := by
  simp [Screen.print, Console.print, ← String.toList_inj]

theorem print_empty (screen : Screen) : screen.print "" = screen := by
  simp [Screen.print, Console.print]

namespace BuildCommand

variable {c : BuildCommand} {s : Surroundings} {d : Disk} {p : Project} {t : Start}

/-- The command starts the tool of the project that it opens, on the script that it has written for
it. -/
structure Starts (c : BuildCommand) (s : Surroundings) (d : Disk) (t : Start) : Prop where
  asked : c.scriptOnly = false
  opened : (c.choice.openProject d s.tool).result = .ok t.project
  made : t.project.design.building d (t.project.projectFile c.dir) c.request = .ok t.commands
  found : (t.project.buildScript c.dir c.request d).1 = t.found
  /-- The file of the script holds the commands, and the tool is told its absolute path. -/
  written : ∃ path, (t.project.buildScript c.dir c.request d).2.result = .ok path ∧
    t.found.readText path = .ok (Script.text t.commands) ∧
    path.absolute? t.found.cwdPath = some t.script
  started : s.launch t.found (Batch.directory t.found t.script) t.project.tool
    (Batch.arguments t.script) = .ok t.left

/-- What is to be seen of a build before its script is written. -/
def opening (c : BuildCommand) (p : Project) : Screen :=
  .showing (infoLine ("building project " ++ p.name ++ " in " ++ c.dir.text))

/-- What is to be seen of a build when the tool starts. -/
def starting (c : BuildCommand) (t : Start) : Screen :=
  if c.verbose then
    (c.opening t.project).print (Batch.announcement t.project.tool (Batch.arguments t.script))
  else c.opening t.project

/-- How the project is built, and what is to be seen of that. -/
def built (c : BuildCommand) (s : Surroundings) (d : Disk) (p : Project) :
    (Disk × Screen) × Report Unit :=
  p.build (Batch.runner s.launch c.verbose) c.dir c.request d (c.opening p)

/-- What is to be seen of a build before anything is said of how it went. -/
def shown (c : BuildCommand) (s : Surroundings) (d : Disk) : Screen :=
  match (c.choice.openProject d s.tool).result with
  | .error _ => {}
  | .ok p => (c.built s d p).1.2

/-- What is to be seen of a build that has not come to start the tool: what it is about to do. -/
def Announces (c : BuildCommand) (p : Project) (screen : Screen) : Prop :=
  screen = c.opening p ∨ c.verbose = true ∧ ∃ script,
    screen = (c.opening p).print (Batch.announcement p.tool (Batch.arguments script))

/-- A build that starts the tool shows what it has shown before and then what the tool shows. The
start is reported, and the build fails if the tool does. -/
theorem built_of_starts (starts : c.Starts s d t) :
    ∃ events, c.built s d t.project =
      ((t.left.disk.within t.found.cwd, (c.starting t).after t.left),
        ⟨events ++ [.running t.project.tool (Batch.directory t.found t.script)],
          (Batch.outcome t.left.ending).mapError .toolFailed⟩) := by
  obtain ⟨path, wrote, -, absolute⟩ := starts.written
  refine ⟨(t.project.buildScript c.dir c.request d).2.events, ?_⟩
  rw [built, Project.build_of_written wrote, starts.found]
  simp only [Batch.runner, absolute, starts.started, starting]

/-- A build starts the tool, or it fails without that. -/
theorem built_cases (asked : c.scriptOnly = false)
    (opened : (c.choice.openProject d s.tool).result = .ok p) :
    (∃ t, c.Starts s d t) ∨
      (∃ e, (c.built s d p).2.result = .error e) ∧ c.Announces p (c.built s d p).1.2 := by
  cases wrote : (p.buildScript c.dir c.request d).2.result with
  | error e =>
    have call := p.runsAfter_build c.dir c.request d (Batch.runner s.launch c.verbose)
    obtain ⟨world, failed⟩ := call.failed e wrote (c.opening p)
    exact .inr ⟨failed, .inl (congrArg Prod.snd world)⟩
  | ok path =>
    obtain ⟨commands, made, read⟩ := Project.readText_buildScript wrote
    rw [built, Project.build_of_written wrote]
    generalize written : (p.buildScript c.dir c.request d).1 = found at read ⊢
    cases absolute : path.absolute? found.cwdPath with
    | none =>
      simp only [Batch.runner, absolute]
      exact .inr ⟨⟨_, rfl⟩, .inl rfl⟩
    | some script =>
      cases launched : s.launch found (Batch.directory found script) p.tool
          (Batch.arguments script) with
      | ok left =>
        exact .inl ⟨⟨p, commands, script, found, left⟩,
          ⟨asked, opened, made, written, ⟨path, wrote, read, absolute⟩, launched⟩⟩
      | error fault =>
        simp only [Batch.runner, absolute, launched]
        refine .inr ⟨⟨_, rfl⟩, ?_⟩
        cases verbose : c.verbose with
        | false => exact .inl rfl
        | true => exact .inr ⟨verbose, script, rfl⟩

/-- The project is built if the tool can be started and ends with the code zero, and otherwise
not. -/
theorem result_built_eq_ok_iff (asked : c.scriptOnly = false)
    (opened : (c.choice.openProject d s.tool).result = .ok p) :
    (c.built s d p).2.result = .ok () ↔ ∃ t, c.Starts s d t ∧ t.left.ending = .exited 0 := by
  have ended {t : Start} (starts : c.Starts s d t) :
      (c.built s d p).2.result = .ok () ↔ t.left.ending = .exited 0 := by
    obtain rfl : p = t.project := Except.ok.inj (opened.symm.trans starts.opened)
    obtain ⟨events, call⟩ := built_of_starts starts
    rw [call, ← Batch.outcome_eq_ok_iff]
    cases Batch.outcome t.left.ending <;> simp [Except.mapError]
  constructor
  · intro ok
    rcases built_cases asked opened with ⟨t, starts⟩ | ⟨⟨e, failed⟩, -⟩
    · exact ⟨t, starts, (ended starts).mp ok⟩
    · rw [ok] at failed
      cases failed
  · rintro ⟨t, starts, zero⟩
    exact (ended starts).mpr zero

/-- Where the tool is not started, nothing is to be seen but what the command is about to do. -/
theorem shown_of_unstarted (asked : c.scriptOnly = false) (unstarted : ∀ t, ¬ c.Starts s d t) :
    c.shown s d = {} ∨ ∃ p, c.Announces p (c.shown s d) := by
  cases opened : (c.choice.openProject d s.tool).result with
  | error e => exact .inl (by simp only [shown, opened])
  | ok p =>
    have seen : c.shown s d = (c.built s d p).1.2 := by simp only [shown, opened]
    rcases built_cases asked opened with ⟨t, starts⟩ | ⟨-, announces⟩
    · exact absurd starts (unstarted t)
    · exact .inr ⟨p, seen ▸ announces⟩

theorem execute_of_opened (asked : c.scriptOnly = false)
    (opened : (c.choice.openProject d s.tool).result = .ok p) :
    c.execute s d =
      ((thenPrint c.conclusion (c.built s d p)).1,
        (c.built s d p).2.after (c.choice.openProject d s.tool).events) := by
  have call : c.execute s d =
      ((thenPrint c.conclusion (c.built s d p)).1,
        (thenPrint c.conclusion (c.built s d p)).2.after
          (c.choice.openProject d s.tool).events) := by
    rw [execute, withProject_of_ok opened, asked, if_neg Bool.false_ne_true]
    rfl
  rw [call, report_thenPrint]

/-- The tool is not started for the script alone. -/
theorem idle_execute (only : c.scriptOnly = true) : (c.execute s d).2.Idle := by
  have before := idle_openProject d s.tool c.choice.file c.choice.project c.choice.tool
  cases opened : (c.choice.openProject d s.tool).result with
  | error e =>
    have call : c.execute s d = ((d, {}), ⟨(c.choice.openProject d s.tool).events, .error e⟩) :=
      withProject_of_error opened _
    rw [call]
    exact before
  | ok p =>
    rw [execute, withProject_of_ok opened, only, if_pos rfl]
    refine Report.Idle.after before ?_
    have wrote := p.idle_buildScript c.dir c.request d
    rw [Report.Idle, ← events_scriptWritten] at wrote
    exact wrote

/-- A build that goes well has started the tool, and says so at last. Any other fails, and says no
more than it has. -/
theorem execute_cases (asked : c.scriptOnly = false) :
    (c.execute s d).2.result = .ok () ∧ (c.execute s d).1.2 = (c.shown s d).print c.conclusion ∧
        (∃ t, c.Starts s d t ∧ t.left.ending = .exited 0) ∨
      (∃ e, (c.execute s d).2.result = .error e) ∧ (c.execute s d).1.2 = c.shown s d ∧
        ¬ ∃ t, c.Starts s d t ∧ t.left.ending = .exited 0 := by
  cases opened : (c.choice.openProject d s.tool).result with
  | error e =>
    have call : c.execute s d = ((d, {}), ⟨(c.choice.openProject d s.tool).events, .error e⟩) :=
      withProject_of_error opened _
    refine .inr ⟨⟨e, by rw [call]⟩, by simp only [call, shown, opened], ?_⟩
    rintro ⟨t, starts, -⟩
    rw [starts.opened] at opened
    cases opened
  | ok p =>
    have seen : c.shown s d = (c.built s d p).1.2 := by simp only [shown, opened]
    have started := result_built_eq_ok_iff asked opened
    rw [execute_of_opened asked opened, seen]
    cases ended : (c.built s d p).2.result with
    | ok _ =>
      rw [thenPrint_of_ok ended]
      exact .inl ⟨ended, rfl, started.mp ended⟩
    | error e =>
      rw [thenPrint_of_error ended]
      refine .inr ⟨⟨e, ended⟩, rfl, fun some => ?_⟩
      rw [started.mpr some] at ended
      cases ended

/-- Where the tool is started, the results are asked for with a place for them, and written by the
script, or synthesis alone is asked for, and the script has nothing else. -/
theorem cases_of_starts (starts : c.Starts s d t) :
    (∃ folder, c.output = some folder ∧ c.conclusion = exportLine folder ∧
        Exports t.commands ∧ Implements t.commands) ∨
      c.conclusion = timingLine ∧ ¬ Exports t.commands ∧ ¬ Implements t.commands := by
  obtain ⟨file, result, shape, asked, placed⟩ := Design.exists_of_building_ok starts.made
  rw [shape, Design.exports_buildCommands, Design.implements_buildCommands, asked]
  cases only : c.synthesisOnly with
  | false =>
    obtain ⟨folder, given⟩ := placed only
    have given : c.output = some folder := given
    exact .inl ⟨folder, given, by simp only [conclusion, only, given, exportLine], only, only⟩
  | true =>
    have only' : c.request.synthesisOnly = true := only
    exact .inr ⟨by simp only [conclusion, only, timingLine], by simp [only'], by simp [only']⟩

/-- The command adds a line of its own to what is to be seen. -/
def Prints (c : BuildCommand) (s : Surroundings) (d : Disk) (line : String) : Prop :=
  (c.execute s d).1.2 = (c.shown s d).print line

theorem prints_iff (asked : c.scriptOnly = false) (line : String) (given : line ≠ "") :
    c.Prints s d line ↔ c.conclusion = line ∧ ∃ t, c.Starts s d t ∧ t.left.ending = .exited 0 := by
  rw [Prints]
  rcases execute_cases (s := s) (d := d) asked with ⟨-, screen, started⟩ | ⟨-, screen, unstarted⟩
  · rw [screen, print_inj]
    exact ⟨fun same => ⟨same, started⟩, And.left⟩
  · rw [screen]
    refine iff_of_false (fun same => given ?_) fun ⟨_, started⟩ => unstarted started
    exact (print_inj.mp (same.symm.trans (print_empty _).symm))

/-- What the command says, and whether it succeeds, if more than the script is asked for. -/
structure Reports (c : BuildCommand) (s : Surroundings) (d : Disk) : Prop where
  /-- It says that the results are written exactly if the tool ended well on a script that writes
  them. -/
  exported : (∃ folder, c.Prints s d (exportLine folder)) ↔
    ∃ t, c.Starts s d t ∧ t.left.ending = .exited 0 ∧ Exports t.commands
  /-- It says that they are written to the output that was asked for. -/
  placed : ∀ folder, c.Prints s d (exportLine folder) → c.output = some folder
  /-- It says that synthesis met the limit exactly if the tool ended well on a script without
  implementation. -/
  timed : c.Prints s d timingLine ↔
    ∃ t, c.Starts s d t ∧ t.left.ending = .exited 0 ∧ ¬ Implements t.commands
  /-- It succeeds exactly if the tool ended well. -/
  succeeded : (c.execute s d).2.result = .ok () ↔
    ∃ t, c.Starts s d t ∧ t.left.ending = .exited 0
  /-- Where the tool is not started, it has only said what it is about to do. -/
  unstarted : (∀ t, ¬ c.Starts s d t) →
    c.shown s d = {} ∨ ∃ p, c.Announces p (c.shown s d)
  /-- If it says neither, it says nothing and fails. -/
  otherwise : (∀ folder, ¬ c.Prints s d (exportLine folder)) → ¬ c.Prints s d timingLine →
    (c.execute s d).1.2 = c.shown s d ∧ ∃ e, (c.execute s d).2.result = .error e

/-- What comes of a start of the tool. -/
structure Follows (c : BuildCommand) (s : Surroundings) (d : Disk) (t : Start) : Prop where
  /-- The start is reported. -/
  told : .running t.project.tool (Batch.directory t.found t.script) ∈ (c.execute s d).2.events
  /-- What the tool shows comes behind what the command has said, and before its conclusion. -/
  shown : c.shown s d = (c.starting t).after t.left
  /-- If the tool fails, the command fails for that. -/
  failed : ∀ cause, Batch.outcome t.left.ending = .error cause →
    (c.execute s d).2.result = .error (.toolFailed cause)
  /-- The script is the one in the folder of the project. -/
  located : (c.dir.child buildingFile).absolute? d.cwdPath = some t.script
  /-- What the tool is told leads to the script from every directory, unless a backslash stands in
  its path or the system refuses that. -/
  reached : d.Sound → '\\' ∉ t.script.chars → Disk.textFault? t.script = none →
    t.found.ReadsAnywhere ⟨t.script.tclText⟩ (Script.text t.commands)
  /-- Unless a text in it holds a line feed, the lines of the script tell what it does. -/
  lines : (∀ command ∈ t.commands, ∀ operand ∈ command.operands, OneLine operand) →
    (Exports t.commands ↔ HasLine bitstreamFront (Script.text t.commands) ∧
      HasLine hardwareFront (Script.text t.commands)) ∧
    (Implements t.commands ↔ HasLine implementationFront (Script.text t.commands))

theorem reports (asked : c.scriptOnly = false) : c.Reports s d := by
  have said {folder : Path} := prints_iff (s := s) (d := d) asked (exportLine folder)
    (infoLine_ne _)
  have saidTiming := prints_iff (s := s) (d := d) asked timingLine (infoLine_ne _)
  refine ⟨⟨?comes, ?goes⟩, ?placed, ⟨?timed, ?alone⟩, ?succeeded,
    shown_of_unstarted asked, ?otherwise⟩
  case comes =>
    rintro ⟨folder, prints⟩
    obtain ⟨conclusion, t, starts, zero⟩ := said.mp prints
    rcases cases_of_starts starts with ⟨-, -, -, exports, -⟩ | ⟨timing, -⟩
    · exact ⟨t, starts, zero, exports⟩
    · exact absurd (conclusion.symm.trans timing) (exportLine_ne_timingLine folder)
  case goes =>
    rintro ⟨t, starts, zero, exports⟩
    rcases cases_of_starts starts with ⟨folder, -, conclusion, -⟩ | ⟨-, silent, -⟩
    · exact ⟨folder, said.mpr ⟨conclusion, t, starts, zero⟩⟩
    · exact absurd exports silent
  case placed =>
    intro folder prints
    obtain ⟨conclusion, t, starts, -⟩ := said.mp prints
    rcases cases_of_starts starts with ⟨output, given, own, -⟩ | ⟨timing, -⟩
    · rw [given, exportLine_inj.mp (own.symm.trans conclusion)]
    · exact absurd (conclusion.symm.trans timing) (exportLine_ne_timingLine folder)
  case timed =>
    intro prints
    obtain ⟨conclusion, t, starts, zero⟩ := saidTiming.mp prints
    rcases cases_of_starts starts with ⟨folder, -, own, -⟩ | ⟨-, -, silent⟩
    · exact absurd (own.symm.trans conclusion) (exportLine_ne_timingLine folder)
    · exact ⟨t, starts, zero, silent⟩
  case alone =>
    rintro ⟨t, starts, zero, silent⟩
    rcases cases_of_starts starts with ⟨-, -, -, -, implements⟩ | ⟨conclusion, -⟩
    · exact absurd implements silent
    · exact saidTiming.mpr ⟨conclusion, t, starts, zero⟩
  case succeeded =>
    rcases execute_cases (s := s) (d := d) asked with ⟨ok, -, started⟩ | ⟨⟨e, failed⟩, -, unstarted⟩
    · exact iff_of_true ok started
    · rw [failed]
      exact iff_of_false (by simp) unstarted
  case otherwise =>
    intro noExport noTiming
    rcases execute_cases (s := s) (d := d) asked with ⟨-, -, t, starts, zero⟩ | ⟨failed, screen, -⟩
    · rcases cases_of_starts starts with ⟨folder, -, conclusion, -⟩ | ⟨conclusion, -⟩
      · exact absurd (said.mpr ⟨conclusion, t, starts, zero⟩) (noExport folder)
      · exact absurd (saidTiming.mpr ⟨conclusion, t, starts, zero⟩) noTiming
    · exact ⟨screen, failed⟩

theorem follows (starts : c.Starts s d t) : c.Follows s d t := by
  obtain ⟨events, call⟩ := built_of_starts starts
  have executed := execute_of_opened starts.asked starts.opened
  refine ⟨?told, ?shown, fun cause failed => ?failed, ?located,
    fun sound plain text => ?reached, fun oneLine => ?lines⟩
  case told =>
    rw [executed, call]
    simp [Report.after]
  case shown =>
    simp only [shown, starts.opened, call]
  case failed =>
    rw [executed, call, failed]
    rfl
  case located =>
    obtain ⟨path, wrote, -, absolute⟩ := starts.written
    rw [← starts.found] at absolute
    obtain ⟨rfl, stayed⟩ := Project.eq_child_of_written wrote
    rwa [stayed] at absolute
  case reached =>
    obtain ⟨path, wrote, -, absolute⟩ := starts.written
    rw [← starts.found] at absolute ⊢
    obtain ⟨commands, made, reads⟩ :=
      Project.readsAnywhere_buildScript sound wrote absolute text
    obtain rfl : t.commands = commands := Except.ok.inj (starts.made.symm.trans made)
    rw [Path.tclText_eq_text plain]
    exact reads
  case lines =>
    obtain ⟨file, result, shape, -⟩ := Design.exists_of_building_ok starts.made
    refine ⟨exports_iff_hasLine oneLine, ?_⟩
    rw [hasLine_text_iff (by decide) oneLine, shape]
    exact Design.linesStarting_implementation.symm

end BuildCommand

/-! ### Main statement -/

/-- The command that builds a project says what its script did, and succeeds if the tool does. If
only the script is asked for, no start of the tool is reported, and with every launcher the command
does the same. -/
theorem build_reports_script (c : BuildCommand) (s : Surroundings) (d : Disk) :
    (c.scriptOnly = true → (c.execute s d).2.Idle ∧
      ∀ launch, c.execute { s with launch := launch } d = c.execute s d) ∧
    (c.scriptOnly = false → c.Reports s d) ∧
    ∀ t, c.Starts s d t → c.Follows s d t := by
  refine ⟨fun only => ⟨BuildCommand.idle_execute only, fun launch => ?_⟩,
    BuildCommand.reports, fun t => BuildCommand.follows⟩
  simp only [BuildCommand.execute, only, if_true]

/-- A disk with a configuration, and with a folder in which its project has been created. -/
def prepared : Disk where
  entries := [(["w"], .directory), (["w", "n.xpr"], .file (.text "") false),
    (["Vproj.toml"], .file (.text "[[project]]\nname = \"n\"\npart = \"p\"\n") false)]
  distinct := by decide
  cwd := []

/-- Surroundings in which every tool does nothing and ends with a code. -/
def endingWith (code : Nat) : Surroundings where
  launch d _ _ _ := .ok { disk := d, console := {}, ending := .exited code }
  tool := none

/-- A build of the project, or the script for it alone. -/
def fullBuild (scriptOnly : Bool) : BuildCommand where
  dir := ⟨"w"⟩
  choice := ⟨none, none, none⟩
  output := some ⟨"out"⟩
  threads := none
  synthesisOnly := false
  scriptOnly := scriptOnly
  verbose := true

/-- The build says where the results are, which its script writes, if the tool ends with zero, and
the tool is told of the script by its path. If it ends with one, the build says neither. The script
alone starts no tool. -/
theorem fullBuild_reports :
    (∃ t, (fullBuild false).Starts (endingWith 0) prepared t ∧ Exports t.commands ∧
        t.found.ReadsAnywhere ⟨"/w/build_vivado_project.tcl"⟩ (Script.text t.commands)) ∧
      (fullBuild false).Prints (endingWith 0) prepared (exportLine ⟨"out"⟩) ∧
      (∀ folder, ¬ (fullBuild false).Prints (endingWith 1) prepared (exportLine folder)) ∧
      ¬ (fullBuild false).Prints (endingWith 1) prepared timingLine ∧
      ((fullBuild true).execute (endingWith 0) prepared).2.Idle := by
  have ok : ((fullBuild false).execute (endingWith 0) prepared).2.result = .ok () :=
    eq_ok_of_toOption (by decide +kernel)
  have failed : ((fullBuild false).execute (endingWith 1) prepared).2.result.isOk = false := by
    decide +kernel
  obtain ⟨-, reports, follows⟩ := build_reports_script (fullBuild false) (endingWith 0) prepared
  obtain ⟨-, reports', -⟩ := build_reports_script (fullBuild false) (endingWith 1) prepared
  obtain ⟨only, -, -⟩ := build_reports_script (fullBuild true) (endingWith 0) prepared
  have prints : (fullBuild false).Prints (endingWith 0) prepared (exportLine ⟨"out"⟩) :=
    (BuildCommand.prints_iff rfl _ (infoLine_ne _)).mpr ⟨rfl, (reports rfl).succeeded.mp ok⟩
  obtain ⟨t, starts, -, exports⟩ := (reports rfl).exported.mp ⟨_, prints⟩
  have reads : t.found.ReadsAnywhere ⟨"/w/build_vivado_project.tcl"⟩ (Script.text t.commands) := by
    have path : (⟨"w/build_vivado_project.tcl"⟩ : Path).absolute? prepared.cwdPath =
        some ⟨"/w/build_vivado_project.tcl"⟩ := by decide +kernel
    have script : t.script = ⟨"/w/build_vivado_project.tcl"⟩ :=
      Option.some.inj ((follows t starts).located.symm.trans path)
    have reached := (follows t starts).reached
      (.of_entries (by decide +kernel) (by decide +kernel))
    rw [script] at reached
    exact reached (by decide +kernel) (by decide +kernel)
  have silent : ¬ ∃ t, (fullBuild false).Starts (endingWith 1) prepared t ∧
      t.left.ending = .exited 0 := by
    rw [← (reports' rfl).succeeded]
    intro ok'
    rw [ok'] at failed
    cases failed
  refine ⟨⟨t, starts, exports, reads⟩, prints, fun folder printed => silent ?_,
    fun printed => silent ?_, (only rfl).1⟩
  · obtain ⟨t, starts, zero, -⟩ := (reports' rfl).exported.mp ⟨folder, printed⟩
    exact ⟨t, starts, zero⟩
  · obtain ⟨t, starts, zero, -⟩ := (reports' rfl).timed.mp printed
    exact ⟨t, starts, zero⟩

end CommandLine

end FpgaProject
