import FpgaProject.Proofs.Script.Reading
import FpgaProject.Script.Design

/-!
The gate of one stage of a build.

A stage launches a run, waits for it, and lets the script go on only if the run came to its end and
its slack is not below the limit. `RunPlan.run_commands` says this of any run and any limit, with
all that was done in the stage.
-/

namespace FpgaProject

open Script

namespace Script

/-- A run passes: it reports that it is complete, and its slack is not below a limit. -/
def Tool.Passes (tool : Tool) (run : String) (limit : Rat) : Prop :=
  tool.progress run = "100%" ∧ ¬ tool.slack run < limit

instance (tool : Tool) (run : String) (limit : Rat) : Decidable (tool.Passes run limit) :=
  inferInstanceAs (Decidable (_ ∧ _))

namespace Session

variable {tool : Tool}

/-! ### Following directives -/

/-- A session that has ended follows nothing more. -/
theorem foldl_follow_of_ended {s : Session} (ended : s.ending.isSome = true)
    (ds : List Directive) : ds.foldl (follow tool) s = s := by
  induction ds with
  | nil => rfl
  | cons d ds ih => rwa [List.foldl_cons, follow, if_pos ended]

/-- Taking lines is following the directives that they are read as. -/
theorem takeAll_of_read {ls : List (List Char)} {ds : List Directive}
    (read : ls.map readDirective = ds.map some) (s : Session) :
    takeAll tool s ls = ds.foldl (follow tool) s := by
  induction ls generalizing ds s with
  | nil =>
    cases ds with
    | nil => rfl
    | cons d ds => cases read
  | cons l ls ih =>
    cases ds with
    | nil => cases read
    | cons d ds =>
      obtain ⟨first, rest⟩ := List.cons.inj read
      rw [takeAll, List.foldl_cons, List.foldl_cons, take, first]
      exact ih rest _

/-- The session after the directives of some commands. -/
def run (tool : Tool) (s : Session) (commands : List Command) : Session :=
  (commands.flatMap Command.directives).foldl (follow tool) s

theorem run_append (s : Session) (first second : List Command) :
    s.run tool (first ++ second) = (s.run tool first).run tool second := by
  simp only [run, List.flatMap_append, List.foldl_append]

theorem run_cons (s : Session) (c : Command) (commands : List Command) :
    s.run tool (c :: commands) = (c.directives.foldl (follow tool) s).run tool commands := by
  simp only [run, List.flatMap_cons, List.foldl_append]

/-- A session that has ended stays as it is. -/
theorem run_of_ended {s : Session} (ended : s.ending.isSome = true) (commands : List Command) :
    s.run tool commands = s :=
  foldl_follow_of_ended ended _

/-- A tool does with the text of a script what its commands ask for, if the script ends itself. -/
theorem session_text {commands : List Command} (free : ∀ c ∈ commands, ∀ t ∈ c.operands, OneLine t)
    (build : ∀ c ∈ commands, c.directives ≠ [])
    (ends : (run tool {} commands).ending.isSome = true) :
    session tool (text commands) = run tool {} commands := by
  have taken : ((lines commands).map String.toList).foldl (take tool) {} = run tool {} commands :=
    takeAll_of_read (map_readDirective_script build) {}
  rw [session, splitAt_text free, takeAll, List.foldl_append, taken]
  -- Behind the last line feed stands nothing, and the session has ended by then.
  change (run tool {} commands).follow tool .nothing = run tool {} commands
  rw [follow, if_pos ends]

/-- A session that goes on, outside of all blocks. -/
structure Open (s : Session) : Prop where
  running : s.ending = none
  flat : s.blocks = []

/-- Outside of all blocks, each directive is performed. -/
theorem Open.follow_eq {s : Session} (h : s.Open) (d : Directive) :
    follow tool s d = s.perform tool d := by
  simp [follow, h.running, h.flat]

/-- The block behind a condition that ends the session: a complaint, and status 1. -/
def giveUp (complaint : String) : List Directive :=
  [.say ("ERROR: " ++ complaint), .exit 1, .endIf]

/-- The block ends the session if it is performed, and does nothing otherwise. -/
theorem Open.foldl_giveUp {s : Session} (h : s.Open) (complaint : String) (performed : Bool) :
    (giveUp complaint).foldl (follow tool) (s.enter performed) =
      if performed then
        ((s.emit (.said ("ERROR: " ++ complaint))).enter true).finish (.exited 1)
      else s := by
  obtain ⟨effects, progress, opened, blocks, ending⟩ := s
  obtain ⟨running, flat⟩ := h
  obtain rfl : ending = none := running
  obtain rfl : blocks = [] := flat
  cases performed with
  | true => simp [giveUp, follow, perform, emit, enter, finish]
  | false => simp [giveUp, follow, skip, enter]

end Session

end Script

namespace Design.RunPlan

open Session

variable {tool : Tool}

/-! ### One stage -/

/-- What is done in a stage. -/
def effects (tool : Tool) (r : RunPlan) : List Effect :=
  .launched r.run :: .awaited r.run :: .reported r.run (tool.progress r.run) ::
    if tool.progress r.run = "100%" then
      .openedRun r.run :: .measured r.run (tool.slack r.run) ::
        if tool.slack r.run < r.slackLimit then [.said ("ERROR: " ++ r.complaint)] else []
    else [.said ("ERROR: " ++ ("Run " ++ r.run ++ " failed."))]

/-- The directives up to the question whether the run is complete. -/
def waiting (r : RunPlan) : List Directive :=
  [.launch r.run, .await r.run, .nothing, .ifIncomplete r.run]

/-- The directives up to the question whether the slack is below the limit. -/
def examining (r : RunPlan) : List Directive :=
  [.nothing, .openRun r.run, .ifBelow r.slackLimit]

/-- The session once the run has been waited for and asked for its progress. -/
def waited (tool : Tool) (r : RunPlan) (s : Session) : Session :=
  { s with
    effects := s.effects ++
      [.launched r.run, .awaited r.run, .reported r.run (tool.progress r.run)]
    progress := (r.run, tool.progress r.run) :: (r.run, "0%") :: s.progress }

/-- The session once the run has been opened and asked for its slack. -/
def examined (tool : Tool) (r : RunPlan) (s : Session) : Session :=
  { s with
    effects := s.effects ++ [.openedRun r.run, .measured r.run (tool.slack r.run)]
    opened := some r.run }

theorem foldl_wait (r : RunPlan) {s : Session} (h : s.Open) :
    r.waiting.foldl (follow tool) s =
      (r.waited tool s).enter (tool.progress r.run ≠ "100%") := by
  simp [waiting, follow, perform, emit, enter, progressOf, waited, h.running, h.flat]

theorem foldl_examine (r : RunPlan) {s : Session} (h : s.Open) :
    r.examining.foldl (follow tool) s =
      (r.examined tool s).enter (tool.slack r.run < r.slackLimit) := by
  simp [examining, follow, perform, emit, enter, examined, h.running, h.flat]

/-- A stage goes on exactly if its run passes; otherwise the session ends with status 1. -/
theorem run_commands (tool : Tool) (r : RunPlan) {s : Session} (h : s.Open) :
    let after := s.run tool r.commands
    after.effects = s.effects ++ r.effects tool ∧
      (tool.Passes r.run r.slackLimit → after.Open) ∧
      (¬ tool.Passes r.run r.slackLimit → after.ending = some (.exited 1)) := by
  have parts : r.commands.flatMap Command.directives =
      r.waiting ++ (giveUp ("Run " ++ r.run ++ " failed.") ++
        (r.examining ++ giveUp r.complaint)) := rfl
  have waitedOpen : (r.waited tool s).Open := ⟨h.running, h.flat⟩
  have examinedOpen : (r.examined tool (r.waited tool s)).Open := ⟨h.running, h.flat⟩
  simp only [Session.run, parts, List.foldl_append, foldl_wait r h, waitedOpen.foldl_giveUp]
  by_cases complete : tool.progress r.run = "100%"
  · simp only [complete, ne_eq, not_true_eq_false, decide_false, Bool.false_eq_true, if_false,
      foldl_examine r waitedOpen, examinedOpen.foldl_giveUp]
    by_cases below : tool.slack r.run < r.slackLimit
    · simp [Tool.Passes, complete, below, effects, waited, examined, emit, enter, finish]
    · have passes : tool.Passes r.run r.slackLimit := ⟨complete, below⟩
      simp [passes, complete, below, effects, waited, examined]
      exact ⟨h.running, h.flat⟩
  · -- The session has ended, so the rest of the stage is not performed.
    simp only [complete, ne_eq, not_false_eq_true, decide_true, if_true]
    rw [foldl_follow_of_ended rfl, foldl_follow_of_ended rfl]
    simp [Tool.Passes, complete, effects, waited, emit, enter, finish]

/-! ### What a stage does -/

theorem mem_launched {run : String} {r : RunPlan} :
    .launched run ∈ r.effects tool ↔ run = r.run := by
  unfold effects
  split
  · split <;> simp
  · simp

/-- A stage whose run passes has waited for it and measured its slack. -/
theorem effects_of_passes {r : RunPlan} (h : tool.Passes r.run r.slackLimit) :
    r.effects tool = [.launched r.run, .awaited r.run, .reported r.run (tool.progress r.run),
      .openedRun r.run, .measured r.run (tool.slack r.run)] := by
  simp [effects, h.1, h.2]

/-- A stage does nothing but launch, wait, ask, open and complain. -/
theorem cases_of_mem_effects {r : RunPlan} {e : Effect} (h : e ∈ r.effects tool) :
    e = .launched r.run ∨ e = .awaited r.run ∨ (∃ answer, e = .reported r.run answer) ∨
      e = .openedRun r.run ∨ (∃ slack, e = .measured r.run slack) ∨ ∃ complaint, e = .said complaint := by
  unfold effects at h
  split at h
  · split at h <;> simp at h <;> grind
  · simp at h
    grind

/-- In a stage, a run is opened only after it reported that it is complete. -/
theorem reported_before_opened {r : RunPlan} {run : String} {before after : List Effect}
    (h : r.effects tool = before ++ .openedRun run :: after) : .reported run "100%" ∈ before := by
  have member : .openedRun run ∈ r.effects tool := by simp [h]
  obtain ⟨rfl, complete⟩ : run = r.run ∧ tool.progress r.run = "100%" := by
    unfold effects at member
    split at member
    · rename_i complete
      split at member <;> exact ⟨by simpa using member, complete⟩
    · simp at member
  -- The report stands in the front part that every stage has, and nothing is opened there.
  let front : List Effect := [.launched r.run, .awaited r.run, .reported r.run "100%"]
  obtain ⟨back, whole⟩ : ∃ back, r.effects tool = front ++ back := by
    simp [effects, complete, front]
  rcases Text.occurs_in_append (whole.symm.trans h) with ⟨rest, first⟩ | ⟨later, rfl, -⟩
  · have opened : Effect.openedRun r.run ∈ front := by simp [first]
    simp [front] at opened
  · simp [front]

end Design.RunPlan

end FpgaProject
