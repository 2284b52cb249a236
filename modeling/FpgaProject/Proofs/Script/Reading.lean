import Mathlib
import FpgaProject.Proofs.Script.Session

/-!
How the lines of build commands are read.

Each line that a build script can hold is read as what its command means, whatever stands in its
operand: a file, a run, a number or a text. Only line feeds are excluded, and those by the caller,
since a line holds none.
-/

namespace FpgaProject.Script

/-! ### Cutting a line -/

/-- A line is read by its first word. -/
theorem readDirective_of_eq {line word rest : String} {d : Directive}
    (shape : line = word ++ " " ++ rest) (ne : word.toList ≠ []) (free : ' ' ∉ word.toList)
    (operand : readOperand word rest.toList = some d) : readDirective line.toList = some d := by
  obtain ⟨c, cs, first⟩ := List.exists_cons_of_ne_nil ne
  have hc : c ≠ ' ' := by
    rintro rfl
    exact free (first ▸ List.mem_cons_self)
  have chars : line.toList = word.toList ++ ' ' :: rest.toList := by simp [shape]
  have kept : line.toList.dropWhile (· = ' ') = word.toList ++ ' ' :: rest.toList := by
    rw [chars, first, List.cons_append, List.dropWhile_cons_of_neg (by simpa using hc)]
  simp only [readDirective, kept, Text.cutAt_append free, String.ofList_toList, operand]

/-- Blanks in front of a line do not matter. -/
theorem readDirective_indented (line : String) :
    readDirective ("  " ++ line).toList = readDirective line.toList := by
  simp [readDirective]

/-! ### The lines of commands -/

/-- What the lines of a build command ask for; nothing for the commands of creation. -/
def Command.directives : Command → List Directive
  | .blank => [.nothing]
  | .openProject file => [.openProject file]
  | .limitThreads count => [.limitThreads count]
  | .launch run => [.launch run]
  | .await run => [.await run]
  | .requireComplete run =>
    [.ifIncomplete run, .say ("ERROR: " ++ ("Run " ++ run ++ " failed.")), .exit 1, .endIf]
  | .openRun run => [.openRun run]
  | .requireSlack limit complaint =>
    [.ifBelow limit, .say ("ERROR: " ++ complaint), .exit 1, .endIf]
  | .writeBitstream file => [.writeBitstream file]
  | .writeHardware file => [.writeHardware file]
  | .exit => [.exit 0]
  | _ => []

theorem readOperand_limitThreads (count : Nat) :
    readOperand "set_param" ("general.maxThreads " ++ toString count).toList =
      some (.limitThreads count) := by
  have operand := between?_append "general.maxThreads " count.repr ""
  rw [String.append_empty] at operand
  simp only [readOperand]
  rw [show toString count = count.repr from rfl, operand]
  simp

theorem readOperand_say (t : String) :
    readOperand "puts" ("\"" ++ t ++ "\"").toList = some (.say t) := by
  simp only [readOperand, between?_append, Option.map_some]

theorem readOperand_ifIncomplete (run : String) :
    readOperand "if" ("\x7b[get_property PROGRESS [get_runs " ++ run ++
      "]] != \"100%\"\x7d \x7b").toList = some (.ifIncomplete run) := by
  simp only [readOperand, readCondition, between?_append]

theorem readOperand_ifBelow (limit : Int) :
    readOperand "if"
      ("\x7b[expr \x7b[get_property SLACK [get_timing_paths -delay_type min_max]] < " ++
        toString limit ++ "\x7d]\x7d \x7b").toList = some (.ifBelow limit) := by
  -- The condition on the progress starts with another word.
  obtain ⟨asked, hasked⟩ :
      ∃ t, "\x7b[get_property PROGRESS [get_runs ".toList = '\x7b' :: '[' :: 'g' :: t := ⟨_, rfl⟩
  obtain ⟨given, hgiven⟩ : ∃ t,
      "\x7b[expr \x7b[get_property SLACK [get_timing_paths -delay_type min_max]] < ".toList =
        '\x7b' :: '[' :: 'e' :: t := ⟨_, rfl⟩
  have other : ∀ s, between? "\x7b[get_property PROGRESS [get_runs " "]] != \"100%\"\x7d \x7b"
      ("\x7b[expr \x7b[get_property SLACK [get_timing_paths -delay_type min_max]] < " ++ s ++
        "\x7d]\x7d \x7b").toList = none := by
    intro s
    simp [between?, afterFront?, hasked, hgiven, -String.toList_ofList]
  rw [show toString limit = limit.repr from rfl]
  simp only [readOperand, readCondition, other, between?_append, Option.bind_some,
    Int.toInt?_repr, Option.map_some]

/-- The two lines that close the block of a complaint. -/
theorem readDirective_giveUp :
    readDirective "  exit 1".toList = some (.exit 1) ∧ readDirective "\x7d".toList = some .endIf := by
  constructor
  · rw [show "  exit 1" = "  " ++ ("exit" ++ " " ++ (1 : Nat).repr) from rfl, readDirective_indented]
    refine readDirective_of_eq rfl (by decide) (by decide) ?_
    have : (1 : Nat).repr.toList ≠ [] := by decide
    simp only [readOperand, this, if_false, String.ofList_toList, Nat.toNat?_repr, Option.map_some]
  · decide

/-- The lines of a build command are read as what the command asks for, whatever its operands. -/
theorem map_readDirective_lines {c : Command} (build : c.directives ≠ []) :
    (c.lines.map String.toList).map readDirective = c.directives.map some := by
  have one : ∀ {line : String} (word rest : String) {d : Directive}, line = word ++ " " ++ rest →
      word.toList ≠ [] → ' ' ∉ word.toList → readOperand word rest.toList = some d →
      [readDirective line.toList] = [some d] := by
    intro line word rest d shape ne free operand
    rw [readDirective_of_eq shape ne free operand]
  have block : ∀ {condition complaint : String} (rest : String) {d : Directive},
      "if \x7b" ++ condition ++ "\x7d \x7b" = "if" ++ " " ++ rest →
      readOperand "if" rest.toList = some d →
      ((complainIf condition complaint).map String.toList).map readDirective =
        [d, .say ("ERROR: " ++ complaint), .exit 1, .endIf].map some := by
    intro condition complaint rest d shape operand
    have say : readDirective ("  puts \"ERROR: " ++ complaint ++ "\"").toList =
        some (.say ("ERROR: " ++ complaint)) := by
      rw [show "  puts \"ERROR: " ++ complaint ++ "\"" =
        "  " ++ ("puts" ++ " " ++ ("\"" ++ ("ERROR: " ++ complaint) ++ "\"")) by
          simp only [← String.append_assoc]; rfl, readDirective_indented]
      exact readDirective_of_eq rfl (by decide) (by decide) (readOperand_say _)
    simp only [complainIf, List.map_cons, List.map_nil, say, readDirective_giveUp,
      readDirective_of_eq shape (by decide) (by decide) operand]
  cases c with
  | blank => decide
  | exit => decide
  | openProject file =>
    exact one "open_project" file rfl (by decide) (by decide)
      (by simp [readOperand])
  | limitThreads count =>
    exact one "set_param" ("general.maxThreads " ++ toString count)
      (by rw [← String.append_assoc]; rfl) (by decide) (by decide) (readOperand_limitThreads count)
  | launch run =>
    exact one "launch_runs" run rfl (by decide) (by decide)
      (by simp [readOperand])
  | await run =>
    exact one "wait_on_run" run rfl (by decide) (by decide)
      (by simp [readOperand])
  | openRun run =>
    exact one "open_run" run rfl (by decide) (by decide)
      (by simp [readOperand])
  | writeBitstream file =>
    exact one "write_bitstream" file rfl (by decide) (by decide)
      (by simp [readOperand])
  | writeHardware file =>
    exact one "write_hwdef" file rfl (by decide) (by decide)
      (by simp [readOperand])
  | requireComplete run =>
    refine block ("\x7b[get_property PROGRESS [get_runs " ++ run ++
      "]] != \"100%\"\x7d \x7b") ?_ (readOperand_ifIncomplete run)
    simp only [← String.toList_inj, String.toList_append, List.append_assoc]
    rfl
  | requireSlack limit complaint =>
    refine block (
      "\x7b[expr \x7b[get_property SLACK [get_timing_paths -delay_type min_max]] < " ++
        toString limit ++ "\x7d]\x7d \x7b") ?_ (readOperand_ifBelow limit)
    simp only [← String.toList_inj, String.toList_append, List.append_assoc]
    rfl
  | _ => exact absurd rfl build

/-- The lines of a build script are read as what its commands ask for. -/
theorem map_readDirective_script {commands : List Command}
    (build : ∀ c ∈ commands, c.directives ≠ []) :
    ((lines commands).map String.toList).map readDirective =
      (commands.flatMap Command.directives).map some := by
  induction commands with
  | nil => rfl
  | cons c commands ih =>
    have rest := ih fun c' hc => build c' (List.mem_cons_of_mem _ hc)
    rw [lines_cons, List.map_append, List.map_append, List.flatMap_cons, List.map_append, rest,
      map_readDirective_lines (build c List.mem_cons_self)]

end FpgaProject.Script
