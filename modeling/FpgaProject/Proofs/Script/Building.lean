import FpgaProject.Proofs.Path.Text
import FpgaProject.Proofs.Script.Gates

/-!
The gates of a whole build.

A build script is two stages, one if only synthesis is asked for, and `Script.session` says what a
tool does with its text. `run_buildCommands` gives all that is done, in order, and how the
session ends, for every tool; `Design.building_gated` draws what a user relies on: nothing is
launched, opened or exported unless all gates before it were passed, and the status says whether
they were.
-/

namespace FpgaProject

open Script

/-! ### What is asked of a session -/

namespace Script.Effect

def isBitstream : Effect → Bool
  | .wroteBitstream _ => true
  | _ => false

/-- Whether a hardware definition was written. -/
def isHardware : Effect → Bool
  | .wroteHardware _ => true
  | _ => false

/-- The limit on threads that was set, if one was. -/
def threads? : Effect → Option Nat
  | .limitedThreads count => some count
  | _ => none

end Script.Effect

namespace Design

/-- The runs of a build, with the slack below which each fails. -/
def gates : List (String × Rat) :=
  [("synth_1", -90), ("impl_1", 0)]

/-- Whether a request and the answers of a tool lead to exports. -/
def BuildRequest.Exports (r : BuildRequest) (tool : Tool) : Prop :=
  r.synthesisOnly = false ∧ tool.Passes "synth_1" (-90) ∧ tool.Passes "impl_1" 0

instance (r : BuildRequest) (tool : Tool) : Decidable (r.Exports tool) :=
  inferInstanceAs (Decidable (_ ∧ _ ∧ _))

/-- A session of a build in which each gate holds. -/
structure Gated (tool : Tool) (r : BuildRequest) (s : Session) : Prop where
  /-- Implementation is launched exactly if it is asked for and synthesis passed. -/
  launched : .launched "impl_1" ∈ s.effects ↔
    r.synthesisOnly = false ∧ tool.Passes "synth_1" (-90)
  /-- The results are written once if both runs passed, and never otherwise. -/
  bitstreams : s.effects.countP Effect.isBitstream = if r.Exports tool then 1 else 0
  hardware : s.effects.countP Effect.isHardware = if r.Exports tool then 1 else 0
  /-- They are written after both runs. -/
  exportedLast : ∀ before e after, s.effects = before ++ e :: after →
    e.isBitstream = true ∨ e.isHardware = true →
      ∀ gate ∈ gates, .awaited gate.1 ∈ before ∧ .measured gate.1 (tool.slack gate.1) ∈ before
  /-- A run is opened only after it reported that it is complete. -/
  openedComplete : ∀ before run after, s.effects = before ++ .openedRun run :: after →
    .reported run "100%" ∈ before
  /-- The session ends with a status, and it is 0 exactly if each run that was launched passed. -/
  exited : s.ending = some (.exited 0) ∨ s.ending = some (.exited 1)
  succeeded : s.ending = some (.exited 0) ↔
    ∀ gate ∈ gates, .launched gate.1 ∈ s.effects → tool.Passes gate.1 gate.2
  /-- The limit on threads is set once. -/
  threads : s.effects.filterMap Effect.threads? = [min r.threads 8]

/-! ### The directives of a build -/

variable {tool : Tool}

/-- The file that the results are written to, if they are asked for. -/
def resultText? (x : Design) (r : BuildRequest) (output : Option Path) : Option String :=
  if r.synthesisOnly then none else output.map fun folder => (folder.child x.name).tclText

/-- The commands after synthesis, by the file for the results. -/
def laterCommands : Option String → List Command
  | none => []
  | some file =>
    implementationPlan.commands ++ [.blank, .writeBitstream file, .writeHardware file, .blank]

def buildCommands (file : String) (threads : Nat) (result : Option String) : List Command :=
  .openProject file :: .limitThreads threads :: .blank ::
    (synthesisPlan.commands ++ .blank :: (laterCommands result ++ [.exit]))

theorem afterSynthesis_eq (x : Design) (r : BuildRequest) (output : Option Path) :
    x.afterSynthesis r output = laterCommands (x.resultText? r output) := by
  obtain ⟨synthesisOnly, threads, given⟩ := r
  cases synthesisOnly <;> cases output <;>
    simp [afterSynthesis, resultText?, laterCommands, exportCommands]

/-- What is done after synthesis, once it passed. -/
def laterEffects (tool : Tool) : Option String → List Effect
  | none => []
  | some file => implementationPlan.effects tool ++
    if tool.Passes "impl_1" 0 then [.wroteBitstream file, .wroteHardware file] else []

def opening (file : String) (threads : Nat) : List Effect :=
  [.openedProject file, .limitedThreads threads]

def buildEffects (tool : Tool) (file : String) (threads : Nat) (result : Option String) :
    List Effect :=
  opening file threads ++ synthesisPlan.effects tool ++
    if tool.Passes "synth_1" (-90) then laterEffects tool result else []

/-- The status with which a build ends: 0 if each of its gates is passed. -/
def finalStatus (tool : Tool) (result : Option String) : Nat :=
  if tool.Passes "synth_1" (-90) ∧ (result.isSome = true → tool.Passes "impl_1" 0) then 0 else 1

theorem passes_synthesisPlan :
    tool.Passes synthesisPlan.run synthesisPlan.slackLimit ↔ tool.Passes "synth_1" (-90) := by
  simp [synthesisPlan]

theorem passes_implementationPlan :
    tool.Passes implementationPlan.run implementationPlan.slackLimit ↔ tool.Passes "impl_1" 0 := by
  simp [implementationPlan]

/-- The last part of a build, from a session in which synthesis passed. -/
theorem run_later (tool : Tool) {s : Session} (h : s.Open) (result : Option String) :
    let after := s.run tool (laterCommands result ++ [.exit])
    after.effects = s.effects ++ laterEffects tool result ∧
      after.ending =
        some (.exited (if result.isSome = true → tool.Passes "impl_1" 0 then 0 else 1)) := by
  cases result with
  | none =>
    simp [laterCommands, laterEffects, Session.run, Command.directives, h.follow_eq,
      Session.perform, Session.finish]
  | some file =>
    obtain ⟨effects, passed, failed⟩ := implementationPlan.run_commands tool h
    rw [passes_implementationPlan] at passed failed
    simp only [laterCommands, List.append_assoc, Session.run_append]
    generalize s.run tool implementationPlan.commands = t at *
    by_cases passes : tool.Passes "impl_1" 0
    · obtain ⟨running, flat⟩ := passed passes
      simp [laterEffects, passes, effects, Session.run, Command.directives, Session.follow,
        Session.perform, Session.emit, Session.finish, running, flat]
    · have ended : t.ending.isSome = true := by rw [failed passes]; rfl
      simp only [Session.run_of_ended ended, effects, failed passes, laterEffects]
      simp [passes]

/-- All that is done in a build, in order, and the status with which it ends. -/
theorem run_buildCommands (tool : Tool) (file : String) (threads : Nat) (result : Option String) :
    let after := Session.run tool {} (buildCommands file threads result)
    after.effects = buildEffects tool file threads result ∧
      after.ending = some (.exited (finalStatus tool result)) := by
  let first : Session := { effects := opening file threads }
  have isOpen : first.Open := ⟨rfl, rfl⟩
  have start : ∀ rest, Session.run tool {}
      (.openProject file :: .limitThreads threads :: .blank :: rest) = first.run tool rest := by
    intro rest
    rfl
  obtain ⟨effects, passed, failed⟩ := synthesisPlan.run_commands tool isOpen
  rw [passes_synthesisPlan] at passed failed
  simp only [buildCommands, start, Session.run_append]
  generalize first.run tool synthesisPlan.commands = t at *
  by_cases passes : tool.Passes "synth_1" (-90)
  · have goesOn := passed passes
    have blank : ∀ rest, t.run tool (.blank :: rest) = t.run tool rest := by
      intro rest
      simp [Session.run_cons, Command.directives, goesOn.follow_eq, Session.perform]
    obtain ⟨laterDone, laterEnds⟩ := run_later tool goesOn result
    rw [blank, laterDone, laterEnds, effects]
    simp [passes, finalStatus, buildEffects, first]
  · have ended : t.ending.isSome = true := by rw [failed passes]; rfl
    simp only [Session.run_of_ended ended, effects, failed passes]
    simp [passes, finalStatus, buildEffects, first]

/-! ### What follows from the order of the effects -/

/-- Nothing is exported in a stage, and no limit on threads is set. -/
theorem no_export_of_mem_effects {r : RunPlan} {e : Effect} (h : e ∈ r.effects tool) :
    e.isBitstream = false ∧ e.isHardware = false ∧ e.threads? = none := by
  rcases r.cases_of_mem_effects h with rfl | rfl | ⟨_, rfl⟩ | rfl | ⟨_, rfl⟩ | ⟨_, rfl⟩ <;>
    exact ⟨rfl, rfl, rfl⟩

theorem countP_effects (tool : Tool) (r : RunPlan) :
    (r.effects tool).countP Effect.isBitstream = 0 ∧
      (r.effects tool).countP Effect.isHardware = 0 ∧
      (r.effects tool).filterMap Effect.threads? = [] := by
  refine ⟨?_, ?_, ?_⟩
  · exact List.countP_eq_zero.mpr fun e he => by simp [(no_export_of_mem_effects he).1]
  · exact List.countP_eq_zero.mpr fun e he => by simp [(no_export_of_mem_effects he).2.1]
  · exact List.filterMap_eq_nil_iff.mpr fun e he => (no_export_of_mem_effects he).2.2

theorem mem_launched_later {run : String} {result : Option String} :
    .launched run ∈ laterEffects tool result ↔ result.isSome = true ∧ run = "impl_1" := by
  cases result with
  | none => simp [laterEffects]
  | some file =>
    simp only [laterEffects, List.mem_append, RunPlan.mem_launched, Option.isSome_some, true_and]
    constructor
    · rintro (rfl | member)
      · rfl
      · split at member <;> simp at member
    · rintro rfl
      exact .inl rfl

theorem countP_later (tool : Tool) (result : Option String) :
    (laterEffects tool result).countP Effect.isBitstream =
        (if result.isSome = true ∧ tool.Passes "impl_1" 0 then 1 else 0) ∧
      (laterEffects tool result).countP Effect.isHardware =
        (if result.isSome = true ∧ tool.Passes "impl_1" 0 then 1 else 0) ∧
      (laterEffects tool result).filterMap Effect.threads? = [] := by
  cases result with
  | none => simp [laterEffects]
  | some file =>
    obtain ⟨bitstreams, hardware, threads⟩ := countP_effects tool implementationPlan
    by_cases passes : tool.Passes "impl_1" 0
    · simp only [laterEffects, passes, if_true, List.countP_append, List.filterMap_append,
        bitstreams, hardware, threads, Option.isSome_some, and_self]
      exact ⟨rfl, rfl, rfl⟩
    · simp [laterEffects, bitstreams, hardware, threads, passes]

/-- What is exported is written after implementation. -/
theorem implementation_before_export {result : Option String} {e : Effect}
    {before after : List Effect} (h : laterEffects tool result = before ++ e :: after)
    (exported : e.isBitstream = true ∨ e.isHardware = true) :
    ∃ rest, before = implementationPlan.effects tool ++ rest ∧ tool.Passes "impl_1" 0 := by
  cases result with
  | none => simp [laterEffects] at h
  | some file =>
    rcases Text.occurs_in_append h with ⟨rest, first⟩ | ⟨later, rfl, second⟩
    · have member : e ∈ implementationPlan.effects tool := by simp [first]
      have quiet := no_export_of_mem_effects member
      simp [quiet.1, quiet.2.1] at exported
    · refine ⟨later, rfl, ?_⟩
      by_contra fails
      simp [fails] at second

theorem reported_before_opened_later {result : Option String} {run : String}
    {before after : List Effect}
    (h : laterEffects tool result = before ++ .openedRun run :: after) :
    .reported run "100%" ∈ before := by
  cases result with
  | none => simp [laterEffects] at h
  | some file =>
    rcases Text.occurs_in_append h with ⟨rest, first⟩ | ⟨later, rfl, second⟩
    · exact RunPlan.reported_before_opened first
    · have opened : Effect.openedRun run ∈
          (if tool.Passes "impl_1" 0 then [.wroteBitstream file, .wroteHardware file] else []) := by
        simp [second]
      split at opened <;> simp at opened

section

variable {r : BuildRequest} {s : Session} {file : String} {threads : Nat} {result : Option String}

/-- What is exported in a build is written after both runs were waited for and measured. -/
theorem gates_before_export {before after : List Effect} {e : Effect}
    (split : buildEffects tool file threads result = before ++ e :: after)
    (exported : e.isBitstream = true ∨ e.isHardware = true) :
    ∀ gate ∈ gates, .awaited gate.1 ∈ before ∧ .measured gate.1 (tool.slack gate.1) ∈ before := by
  rcases Text.occurs_in_append split with ⟨rest, first⟩ | ⟨later, rfl, second⟩
  · -- Up to the end of synthesis nothing is exported.
    exfalso
    have member : e ∈ opening file threads ++ synthesisPlan.effects tool := by simp [first]
    rcases List.mem_append.mp member with opened | stage
    · simp only [opening, List.mem_cons, List.not_mem_nil, or_false] at opened
      rcases opened with rfl | rfl <;> simp [Effect.isBitstream, Effect.isHardware] at exported
    · have quiet := no_export_of_mem_effects stage
      simp [quiet.1, quiet.2.1] at exported
  · have passes : tool.Passes "synth_1" (-90) := by
      by_contra fails
      simp [fails] at second
    rw [if_pos passes] at second
    obtain ⟨rest, rfl, passesToo⟩ := implementation_before_export second exported
    rw [RunPlan.effects_of_passes (passes_synthesisPlan.mpr passes),
      RunPlan.effects_of_passes (passes_implementationPlan.mpr passesToo)]
    simp [gates, synthesisPlan, implementationPlan]

/-- In a build, a run is opened only after it reported that it is complete. -/
theorem report_before_opening {before after : List Effect} {run : String}
    (split : buildEffects tool file threads result = before ++ .openedRun run :: after) :
    .reported run "100%" ∈ before := by
  rcases Text.occurs_in_append split with ⟨rest, first⟩ | ⟨later, rfl, second⟩
  · rcases Text.occurs_in_append first with ⟨rest, start⟩ | ⟨later, rfl, stage⟩
    · have opened : Effect.openedRun run ∈ opening file threads := by simp [start]
      simp [opening] at opened
    · exact List.mem_append_right _ (RunPlan.reported_before_opened stage)
  · split at second
    · exact List.mem_append_right _ (reported_before_opened_later second)
    · simp at second

/-- A session with the effects and the ending of a build is gated. -/
theorem gated_of_run (asked : result.isSome = true ↔ r.synthesisOnly = false)
    (effects : s.effects = buildEffects tool file (min r.threads threadLimit) result)
    (ending : s.ending = some (.exited (finalStatus tool result))) : Gated tool r s := by
  have launches : ∀ run, .launched run ∈ s.effects ↔
      run = "synth_1" ∨ (tool.Passes "synth_1" (-90) ∧ result.isSome = true ∧ run = "impl_1") := by
    intro run
    rw [effects, buildEffects]
    by_cases passes : tool.Passes "synth_1" (-90)
    · simp [passes, opening, RunPlan.mem_launched, mem_launched_later, synthesisPlan]
    · simp [passes, opening, RunPlan.mem_launched, synthesisPlan]
  have launched : .launched "impl_1" ∈ s.effects ↔
      r.synthesisOnly = false ∧ tool.Passes "synth_1" (-90) := by
    rw [launches, ← asked]
    constructor
    · rintro (wrong | ⟨passes, some, -⟩)
      · exact absurd wrong (by decide)
      · exact ⟨some, passes⟩
    · rintro ⟨some, passes⟩
      exact .inr ⟨passes, some, rfl⟩
  have succeeds : finalStatus tool result = 0 ↔
      ∀ gate ∈ gates, .launched gate.1 ∈ s.effects → tool.Passes gate.1 gate.2 := by
    simp only [gates, List.forall_mem_cons, launches, finalStatus]
    by_cases passes : tool.Passes "synth_1" (-90)
    · by_cases passesToo : tool.Passes "impl_1" 0 <;> simp [passes, passesToo]
    · simp [passes]
  obtain ⟨bitstreams, hardware, threads⟩ := countP_effects tool synthesisPlan
  obtain ⟨laterBitstreams, laterHardware, laterThreads⟩ := countP_later tool result
  constructor
  case launched => exact launched
  case bitstreams =>
    rw [effects, buildEffects, List.countP_append, List.countP_append, bitstreams]
    by_cases passes : tool.Passes "synth_1" (-90)
    · simp [passes, laterBitstreams, BuildRequest.Exports, asked, opening, Effect.isBitstream]
    · simp [passes, BuildRequest.Exports, opening, Effect.isBitstream]
  case hardware =>
    rw [effects, buildEffects, List.countP_append, List.countP_append, hardware]
    by_cases passes : tool.Passes "synth_1" (-90)
    · simp [passes, laterHardware, BuildRequest.Exports, asked, opening, Effect.isHardware]
    · simp [passes, BuildRequest.Exports, opening, Effect.isHardware]
  case exportedLast =>
    intro before e after split exported
    exact gates_before_export (effects.symm.trans split) exported
  case openedComplete =>
    intro before run after split
    exact report_before_opening (effects.symm.trans split)
  case exited =>
    rw [ending]
    unfold finalStatus
    split
    · exact .inl rfl
    · exact .inr rfl
  case succeeded =>
    rw [ending, ← succeeds]
    simp
  case threads =>
    have later : (if tool.Passes "synth_1" (-90) then laterEffects tool result else []).filterMap
        Effect.threads? = [] := by
      split
      · exact laterThreads
      · rfl
    rw [effects, buildEffects, List.filterMap_append, List.filterMap_append, threads, later]
    rfl

end

/-! ### Whole scripts -/

theorem oneLine_tclText {p cwd q : Path} (free : p.OneLine cwd) (hq : p.absolute? cwd = some q) :
    '\n' ∉ q.chars := by
  intro member
  rcases Path.mem_chars_absolute? hq member with slash | own | ⟨relative, started⟩
  · exact absurd slash (by decide)
  · exact free.1 own
  · exact free.2 relative started

theorem oneLine_tclText_of_chars {p : Path} (free : '\n' ∉ p.chars) : OneLine p.tclText := by
  intro member
  rcases Path.mem_tclText member with slash | own
  · exact absurd slash (by decide)
  · exact free own

theorem oneLine_result {x : Design} {q : Path} (name : OneLine x.name) (free : '\n' ∉ q.chars) :
    OneLine (q.child x.name).tclText := by
  apply oneLine_tclText_of_chars
  intro member
  rcases Path.mem_chars_child member with own | named | slash
  · exact free own
  · exact name named
  · exact absurd slash (by decide)

/-- With paths that are not empty and an output where one is needed, the script is made. -/
theorem building_eq {x : Design} {d : Disk} {projectFile : Path} {r : BuildRequest}
    (file : projectFile.text ≠ "") (output : ∀ folder ∈ r.output, folder.text ≠ "")
    (complete : r.lacksOutput = false) :
    ∃ q out, projectFile.absolute? d.cwdPath = some q ∧
      (∀ o ∈ out, ∃ folder ∈ r.output, folder.absolute? d.cwdPath = some o) ∧
      ((x.resultText? r out).isSome = true ↔ r.synthesisOnly = false) ∧
      x.building d projectFile r =
        .ok (buildCommands q.tclText (min r.threads threadLimit) (x.resultText? r out)) := by
  obtain ⟨q, hq⟩ := Path.exists_absolute? file d.cwdPath
  obtain ⟨synthesisOnly, threads, given⟩ := r
  cases given with
  | none =>
    cases synthesisOnly with
    | false => simp [BuildRequest.lacksOutput] at complete
    | true =>
      refine ⟨q, none, hq, by simp, by simp [resultText?], ?_⟩
      simp only [building, absoluteOutput, complete, absoluteText, hq]
      rfl
  | some folder =>
    obtain ⟨o, ho⟩ := Path.exists_absolute? (output folder rfl) d.cwdPath
    refine ⟨q, some o, hq, by simpa using ho, by simp [resultText?], ?_⟩
    simp only [building, absoluteOutput, absoluteText, hq, ho, bind, Except.bind, buildCommands,
      afterSynthesis_eq]
    simp

/-- What is found for the output is its absolute form. -/
theorem eq_of_absoluteOutput {d : Disk} {r : BuildRequest} {out : Option Path}
    (found : absoluteOutput d r = .ok out) :
    out = r.output.bind fun folder => folder.absolute? d.cwdPath := by
  obtain ⟨synthesisOnly, threads, given⟩ := r
  unfold absoluteOutput at found
  cases given with
  | none =>
    simp only at found
    split at found
    · cases found
    · exact (Except.ok.inj found).symm
  | some folder =>
    cases ho : folder.absolute? d.cwdPath with
    | none => simp [ho] at found
    | some o => simpa [ho] using found.symm

/-- Each build script is made of the absolute forms of the file and of the output. -/
theorem exists_of_building {x : Design} {d : Disk} {projectFile : Path} {r : BuildRequest}
    {commands : List Command} (made : x.building d projectFile r = .ok commands) :
    ∃ q, projectFile.absolute? d.cwdPath = some q ∧
      commands = buildCommands q.tclText (min r.threads threadLimit)
        (x.resultText? r (r.output.bind fun folder => folder.absolute? d.cwdPath)) := by
  simp only [building, bind, Except.bind] at made
  cases found : absoluteOutput d r with
  | error e => simp [found] at made
  | ok out =>
    cases hq : projectFile.absolute? d.cwdPath with
    | none => simp [found, absoluteText, hq] at made
    | some q =>
      refine ⟨q, rfl, ?_⟩
      rw [← eq_of_absoluteOutput found]
      simp only [found, absoluteText, hq, afterSynthesis_eq, Except.ok.injEq] at made
      rw [← made]
      simp [buildCommands]

/-- The commands of a stage hold no line feed, and each can be read. -/
theorem commands_readable {r : RunPlan} (run : OneLine r.run) (complaint : OneLine r.complaint) :
    ∀ c ∈ r.commands, (∀ t ∈ c.operands, OneLine t) ∧ c.directives ≠ [] := by
  simp [RunPlan.commands, Command.operands, Command.directives, run, complaint]

/-- The commands of a build hold no line feed, and each can be read. -/
theorem buildCommands_readable {file : String} (threads : Nat) {result : Option String}
    (fileLine : OneLine file) (resultLine : ∀ t ∈ result, OneLine t) :
    ∀ c ∈ buildCommands file threads result,
      (∀ t ∈ c.operands, OneLine t) ∧ c.directives ≠ [] := by
  have synthesis := commands_readable (r := synthesisPlan) (by decide) (by decide)
  have implementation := commands_readable (r := implementationPlan) (by decide) (by decide)
  have later : ∀ c ∈ laterCommands result, (∀ t ∈ c.operands, OneLine t) ∧ c.directives ≠ [] := by
    cases result with
    | none => simp [laterCommands]
    | some t =>
      have line : OneLine t := resultLine t rfl
      intro c hc
      rcases List.mem_append.mp hc with hc | hc
      · exact implementation c hc
      · simp only [List.mem_cons, List.not_mem_nil, or_false] at hc
        rcases hc with rfl | rfl | rfl | rfl <;> simp [Command.operands, Command.directives, line]
  intro c hc
  simp only [buildCommands, List.mem_cons, List.mem_append, List.not_mem_nil, or_false] at hc
  rcases hc with rfl | rfl | rfl | hc | rfl | hc | rfl
  · simp [Command.operands, Command.directives, fileLine]
  · simp [Command.operands, Command.directives]
  · simp [Command.operands, Command.directives]
  · exact synthesis c hc
  · simp [Command.operands, Command.directives]
  · exact later c hc
  · simp [Command.operands, Command.directives]

/-- Each build script that can be asked for is made, and every tool that is given its text performs
a gated session. -/
theorem building_gated (x : Design) (d : Disk) (projectFile : Path) (r : BuildRequest) (tool : Tool)
    (name : OneLine x.name)
    (file : projectFile.text ≠ "" ∧ projectFile.OneLine d.cwdPath)
    (output : ∀ folder ∈ r.output, folder.text ≠ "" ∧ folder.OneLine d.cwdPath)
    (complete : r.lacksOutput = false) :
    ∃ commands, x.building d projectFile r = .ok commands ∧
      Gated tool r (session tool (text commands)) := by
  obtain ⟨q, out, hq, hout, asked, made⟩ :=
    building_eq (x := x) file.1 (fun folder given => (output folder given).1) complete
  refine ⟨_, made, ?_⟩
  have fileLine : OneLine q.tclText := oneLine_tclText_of_chars (oneLine_tclText file.2 hq)
  have resultLine : ∀ t ∈ x.resultText? r out, OneLine t := by
    intro t ht
    obtain ⟨-, o, ho, rfl⟩ : r.synthesisOnly = false ∧
        ∃ o, out = some o ∧ (o.child x.name).tclText = t := by
      simpa [resultText?] using ht
    obtain ⟨folder, given, hfolder⟩ := hout o ho
    exact oneLine_result name (oneLine_tclText (output folder given).2 hfolder)
  have readable := buildCommands_readable (min r.threads threadLimit) fileLine resultLine
  obtain ⟨effects, ending⟩ := run_buildCommands tool q.tclText
    (min r.threads threadLimit) (x.resultText? r out)
  rw [Session.session_text (fun c hc => (readable c hc).1) (fun c hc => (readable c hc).2)
    (by rw [ending]; rfl)]
  exact gated_of_run asked effects ending

/-- A build with more threads than the tool takes, and a tool that lets both runs pass. -/
theorem building_gated_of_passing :
    let x : Design := ⟨"p", [], "part", "p_top", none, .empty, [], none, []⟩
    let r : BuildRequest := ⟨false, 12, some ⟨"out"⟩⟩
    let tool : Tool := ⟨fun _ => "100%", fun _ => 0⟩
    ∃ commands, x.building (.empty ["work"]) ⟨"p/p.xpr"⟩ r = .ok commands ∧
      Gated tool r (session tool (text commands)) :=
  building_gated _ _ _ _ _ (by decide) ⟨by decide, by decide⟩
    (by intro folder given; obtain rfl := Option.some.inj given; exact ⟨by decide, by decide⟩) rfl

end Design

end FpgaProject
