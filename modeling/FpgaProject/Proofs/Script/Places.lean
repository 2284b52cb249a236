import FpgaProject.Proofs.Script.Lines
import FpgaProject.Proofs.Tcl.Operand

/-!
The places of paths in the commands of a script.

A command has at most one slot for paths, `Command.slot?`. What is required of a script is that the
reader, given its text from the start, reads the operand of each slot as it should be: `ReadsPaths`.
`readsPaths_iff` says when that is so: `AcceptsPaths` follows the reader from command to command,
past each path as if it were any other one, so it depends on the texts around the paths only through
where the reader stands, and on the paths only through their own characters. Among commands that
leave the reader at the start of a command again, only the paths count (`acceptsPaths_append_iff`).
-/

namespace FpgaProject.Script

open Tcl

/-! ### Slots of commands -/

/-- The characters of a command in a script. -/
def Command.chars (c : Command) : List Char :=
  (c.lines.map String.toList).flatMap (· ++ ['\n'])

theorem toList_text_eq_flatMap (s : List Command) : (text s).toList = s.flatMap Command.chars := by
  rw [toList_text, lines, List.map_flatMap, List.flatMap_assoc]
  rfl

def lastInLine (front : String) (operand : Operand) : Slot :=
  ⟨front.toList, operand, '\n', []⟩

def Command.slot? : Command → Option Slot
  | .createProject name folder part =>
    some ⟨("create_project " ++ name ++ " ").toList, .path folder.toList, ' ',
      ("-part " ++ part ++ "\n").toList⟩
  | .readSources library files =>
    some (lastInLine ("read_vhdl -library " ++ library ++ " -vhdl2008 ")
      (.paths (files.map String.toList)))
  | .source file => some (lastInLine "source " (.path file.toList))
  | .readConstraint (some reference) file =>
    some (lastInLine ("read_xdc -ref " ++ reference ++ " -unmanaged ") (.path file.toList))
  | .readConstraint none file => some (lastInLine "read_xdc -unmanaged " (.path file.toList))
  | .leaveOut stage file =>
    some ⟨("set_property " ++ stageProperty stage ++ " false [get_files ").toList,
      .path file.toList, ']', "\n".toList⟩
  | .openProject file => some (lastInLine "open_project " (.path file.toList))
  | .writeBitstream file => some (lastInLine "write_bitstream " (.path file.toList))
  | .writeHardware file => some (lastInLine "write_hwdef " (.path file.toList))
  | _ => none

/-- A command with a slot is the slot as it is written. -/
theorem Command.chars_of_slot? {c : Command} {s : Slot} (h : c.slot? = some s) :
    c.chars = s.text := by
  cases c with
  | readSources library files =>
    obtain rfl := Option.some.inj h
    simp [chars, lines, Slot.text, lastInLine, Operand.text, toList_intercalate_blank,
      -String.toList_intercalate]
  | readConstraint reference file =>
    cases reference <;>
      · obtain rfl := Option.some.inj h
        simp [chars, lines, Slot.text, lastInLine, Operand.text]
  | createProject | source | leaveOut | openProject | writeBitstream | writeHardware =>
    obtain rfl := Option.some.inj h
    simp [chars, lines, Slot.text, lastInLine, Operand.text]
  | blank | setLanguage | setGenerics | setTop | reorderFiles | limitThreads | launch | await
  | requireComplete | openRun | requireSlack | exit => cases h

/-! ### Reading the paths of a script -/

/-- Each path operand of the script is read as it should be, if the reader starts from here. -/
def ReadsPathsFrom (k : Control) (s : List Command) : Prop :=
  ∀ before c after, s = before ++ c :: after →
    ∀ slot ∈ c.slot?, slot.Reads (reach k (text before).toList)

/-- In the text of the script, each path operand is read as it should be. -/
def ReadsPaths (s : List Command) : Prop :=
  ReadsPathsFrom .fresh s

/-- What is being read behind a command whose path is one word. -/
def Command.after (c : Command) (k : Control) : Control :=
  match c.slot? with
  | none => reach k c.chars
  | some slot => slot.after k

/-- Each path operand is accepted where the commands before it lead. -/
def AcceptsPaths (k : Control) : List Command → Prop
  | [] => True
  | c :: s => (∀ slot ∈ c.slot?, slot.Accepted k) ∧ AcceptsPaths (c.after k) s

/-- What stands in the slot of a command are paths. -/
def Command.HoldsPaths (c : Command) : Prop :=
  ∀ slot ∈ c.slot?, ∀ t ∈ slot.operand.all, PathText t

theorem Command.holdsPaths_of_path {c : Command} {s : Slot} {t : List Char} (h : c.slot? = some s)
    (operand : s.operand = .path t) (path : PathText t) : c.HoldsPaths := by
  intro slot hslot u hu
  obtain rfl := Option.some.inj (h.symm.trans hslot)
  rw [operand] at hu
  obtain rfl := List.mem_singleton.mp hu
  exact path

theorem Command.holdsPaths_of_slotless {c : Command} (h : c.slot? = none) : c.HoldsPaths := by
  simp [HoldsPaths, h]

theorem readsPathsFrom_cons {k : Control} {c : Command} {s : List Command} :
    ReadsPathsFrom k (c :: s) ↔
      (∀ slot ∈ c.slot?, slot.Reads k) ∧ ReadsPathsFrom (reach k c.chars) s := by
  have behind : ∀ before : List Command, reach k (text (c :: before)).toList =
      reach (reach k c.chars) (text before).toList := by
    intro before
    simp only [toList_text_eq_flatMap, List.flatMap_cons, reach_append]
  constructor
  · intro reads
    refine ⟨fun slot hslot => reads [] c s rfl slot hslot, ?_⟩
    intro before e after same slot hslot
    rw [← behind]
    exact reads (c :: before) e after (by rw [same, List.cons_append]) slot hslot
  · rintro ⟨here, later⟩ before e after same slot hslot
    cases before with
    | nil =>
      obtain ⟨rfl, rfl⟩ := List.cons.inj same
      exact here slot hslot
    | cons first before =>
      obtain ⟨rfl, rest⟩ := List.cons.inj same
      rw [behind]
      exact later before e after rest slot hslot

/-- From wherever the reader starts, the paths of a script are read as they should be exactly if they
are accepted. -/
theorem readsPathsFrom_iff {s : List Command} (paths : ∀ c ∈ s, c.HoldsPaths) (k : Control) :
    ReadsPathsFrom k s ↔ AcceptsPaths k s := by
  induction s generalizing k with
  | nil => exact iff_of_true (fun before c after same => by simp at same) trivial
  | cons c s ih =>
    obtain ⟨path, others⟩ := List.forall_mem_cons.mp paths
    have slots : (∀ slot ∈ c.slot?, slot.Reads k) ↔ ∀ slot ∈ c.slot?, slot.Accepted k :=
      forall₂_congr fun slot hslot => slot.reads_iff (path slot hslot) k
    rw [readsPathsFrom_cons, AcceptsPaths, ← slots]
    refine and_congr_right fun reads => ?_
    -- What was read as it should be leads where the other definition goes on.
    have led : reach k c.chars = c.after k := by
      unfold Command.after
      cases hslot : c.slot? with
      | none => rfl
      | some slot =>
        rw [Command.chars_of_slot? hslot]
        exact Slot.reach_text (reads slot hslot)
    rw [led]
    exact ih others (c.after k)

/-- From the start, the paths of a script are read as they should be exactly if they are accepted. -/
theorem readsPaths_iff {s : List Command} (paths : ∀ c ∈ s, c.HoldsPaths) :
    ReadsPaths s ↔ AcceptsPaths .fresh s :=
  readsPathsFrom_iff paths .fresh

/-! ### Commands that end where they should -/

/-- What stands in the slot of a command fits there. -/
def Command.FitsPaths (c : Command) : Prop :=
  ∀ slot ∈ c.slot?, slot.operand.fits (slot.behind = ']') = true

theorem Command.fitsPaths_iff {c : Command} {s : Slot} (h : c.slot? = some s) :
    c.FitsPaths ↔ s.operand.fits (s.behind = ']') = true := by
  simp [FitsPaths, h]

theorem Command.fitsPaths_of_slotless {c : Command} (h : c.slot? = none) : c.FitsPaths := by
  simp [FitsPaths, h]

/-- The texts around the path of a command lead to the place of the path, which is in brackets if one
ends it, and behind the command to the start of the next one. -/
structure Command.Settled (c : Command) : Prop where
  after : c.after .fresh = .fresh
  place : ∀ slot ∈ c.slot?, ∃ begun stack, reach .fresh slot.front = ⟨stack, .between begun⟩ ∧
    (separate? script stack true slot.behind).isSome = true ∧
    (!stack.isEmpty) = decide (slot.behind = ']')

/-- In a settled command, a path is accepted exactly if it fits. -/
theorem Command.Settled.accepted_iff {c : Command} (settled : c.Settled) :
    (∀ slot ∈ c.slot?, slot.Accepted .fresh) ↔ c.FitsPaths := by
  refine forall₂_congr fun slot hslot => ?_
  obtain ⟨begun, stack, place, parts, nested⟩ := settled.place slot hslot
  rw [Slot.Accepted, place, Operand.Accepted]
  simp only [Current.between.injEq, exists_eq', parts, nested, true_and]

/-- Among settled commands, paths are accepted exactly if each of them fits. -/
theorem acceptsPaths_append_iff {s t : List Command} (settled : ∀ c ∈ s, c.Settled) :
    AcceptsPaths .fresh (s ++ t) ↔ (∀ c ∈ s, c.FitsPaths) ∧ AcceptsPaths .fresh t := by
  induction s with
  | nil => simp
  | cons c s ih =>
    obtain ⟨first, others⟩ := List.forall_mem_cons.mp settled
    rw [List.cons_append, AcceptsPaths, first.accepted_iff, first.after, ih others,
      List.forall_mem_cons, and_assoc]

/-- Where there are no slots, nothing is required. -/
theorem acceptsPaths_of_slotless {s : List Command} (slotless : ∀ c ∈ s, c.slot? = none)
    (k : Control) : AcceptsPaths k s := by
  induction s generalizing k with
  | nil => trivial
  | cons c s ih =>
    obtain ⟨none, others⟩ := List.forall_mem_cons.mp slotless
    exact ⟨by simp [none], ih others _⟩

/-! ### Commands around harmless texts -/

/-- Between the words of a command, a text in front of a character leads where the character alone
does. -/
def Harmless (t : String) (behind : Char) : Prop :=
  reach ⟨[], .between true⟩ (t.toList ++ [behind]) = (next script ⟨[], .between true⟩ behind).2

instance (t : String) (behind : Char) : Decidable (Harmless t behind) :=
  inferInstanceAs (Decidable (_ = _))

/-- A harmless text is passed by. -/
theorem reach_around {lead t behind : String} (rest : List Char)
    (led : reach .fresh lead.toList = ⟨[], .between true⟩) (harmless : Harmless t ' ')
    (blank : behind.toList = ' ' :: rest) :
    reach .fresh (lead ++ t ++ behind).toList = reach ⟨[], .between true⟩ rest := by
  have shape : (lead ++ t ++ behind).toList = lead.toList ++ ((t.toList ++ [' ']) ++ rest) := by
    simp [blank]
  rw [shape, reach_append, led, reach_append, harmless]
  rfl

theorem settled_of_slotless {c : Command} (slotless : c.slot? = none)
    (ends : reach .fresh c.chars = .fresh) : c.Settled where
  after := by rw [Command.after, slotless]; exact ends
  place := by simp [slotless]

theorem settled_blank : Command.blank.Settled :=
  settled_of_slotless rfl (by decide)

theorem settled_of_lastInLine {c : Command} {front : String} {operand : Operand}
    (last : c.slot? = some (lastInLine front operand))
    (led : reach .fresh front.toList = ⟨[], .between true⟩) : c.Settled where
  after := by
    simp only [Command.after, last, Slot.after, lastInLine, led]
    rfl
  place := by
    intro slot hslot
    obtain rfl : lastInLine front operand = slot := Option.some.inj (last.symm.trans hslot)
    exact ⟨true, [], led, rfl, rfl⟩

theorem settled_createProject {name folder part : String} (hname : Harmless name ' ')
    (hpart : Harmless part '\n') : (Command.createProject name folder part).Settled := by
  have led : reach .fresh ("create_project " ++ name ++ " ").toList = ⟨[], .between true⟩ :=
    reach_around [] (by decide) hname rfl
  constructor
  case after =>
    have shape : ("-part " ++ part ++ "\n").toList =
        "-part ".toList ++ (part.toList ++ ['\n']) := by
      simp
    have lead : reach (next script ⟨[], .between true⟩ ' ').2 "-part ".toList =
        ⟨[], .between true⟩ := by
      decide
    simp only [Command.after, Command.slot?, Slot.after, led]
    rw [shape, reach_append, lead, hpart]
    rfl
  case place =>
    intro slot hslot
    obtain rfl := Option.some.inj hslot
    exact ⟨true, [], led, rfl, rfl⟩

theorem settled_readSources {library : String} {files : List String}
    (harmless : Harmless library ' ') : (Command.readSources library files).Settled := by
  refine settled_of_lastInLine rfl ?_
  rw [reach_around "-vhdl2008 ".toList (by decide) harmless rfl]
  decide

theorem settled_readConstraint {reference : Option String} {file : String}
    (harmless : ∀ r ∈ reference, Harmless r ' ') :
    (Command.readConstraint reference file).Settled := by
  cases reference with
  | none => exact settled_of_lastInLine rfl (by decide)
  | some reference =>
    refine settled_of_lastInLine rfl ?_
    rw [reach_around "-unmanaged ".toList (by decide) (harmless reference rfl) rfl]
    decide

theorem settled_leaveOut (stage : Stage) (file : String) :
    (Command.leaveOut stage file).Settled := by
  have led : reach .fresh ("set_property " ++ stageProperty stage ++ " false [get_files ").toList =
      ⟨[.word .bare [] false], .between true⟩ := by
    cases stage <;> decide
  constructor
  case after =>
    simp only [Command.after, Command.slot?, Slot.after, led]
    decide
  case place =>
    intro slot hslot
    obtain rfl := Option.some.inj hslot
    exact ⟨true, _, led, rfl, rfl⟩

theorem settled_setGenerics {bindings : String}
    (harmless : Harmless ("\x7b" ++ bindings ++ "\x7d") ' ') :
    (Command.setGenerics bindings).Settled := by
  refine settled_of_slotless rfl ?_
  have shape : (Command.setGenerics bindings).chars =
      ("set_property generic " ++ ("\x7b" ++ bindings ++ "\x7d") ++
        " [current_fileset]\n").toList := by
    simp [Command.chars, Command.lines]
  rw [shape, reach_around "[current_fileset]\n".toList (by decide) harmless rfl]
  decide

end FpgaProject.Script
