import FpgaProject.Proofs.Script.Account
import FpgaProject.Proofs.Script.Lines

/-!
Reading a script of creation back.

The lines between blank ones are a group, and each line is read by its words. `readAccount` takes the
script apart in this way, and `readAccount_text` says that it gives the account back that the script
was made from, as long as no text in it holds a blank or a line feed (`Account.Plain`). So the script
says all that the account does: `creation_recoverable`.
-/

namespace FpgaProject

namespace Script

/-! ### Reading lines -/

def words (line : List Char) : List (List Char) :=
  Text.splitAt ' ' line

def wordsInBraces (s : List Char) : List String :=
  (words (s.drop 1).dropLast).map String.ofList

def readSources (line : List Char) : Option (String × List String) :=
  match words line with
  | _ :: _ :: library :: _ :: files =>
    some (String.ofList library, wordsInBraces (Text.joinWith ' ' files))
  | _ => none

def readOne (line : List Char) : Option String :=
  match words line with
  | [_, operand] => some (String.ofList operand)
  | _ => none

def readBinding (binding : String) : String × String :=
  let (name, value) := Text.cutAt '=' binding.toList
  (String.ofList name, String.ofList value)

def readGenerics (line : List Char) : Option (List (String × String)) :=
  match words line with
  | _ :: _ :: bindings =>
    some ((wordsInBraces (Text.joinWith ' ' bindings.dropLast)).map readBinding)
  | _ => none

/-- The usage of a constraint by the stage that it is left out of. -/
def usageWithout : Option Stage → Usage
  | none => .all
  | some .synthesis => .implementation
  | some .implementation => .synthesis

def readStage (word : List Char) : Option Stage :=
  if word = (stageProperty .synthesis).toList then some .synthesis
  else if word = (stageProperty .implementation).toList then some .implementation
  else none

/-- The lines for constraints, with the stage that a line in front of them left out. -/
def readConstraints : List (List Char) → Option (Option Stage × List Design.ConstraintAccount)
  | [] => some (none, [])
  | line :: lines => do
    let (without, constraints) ← readConstraints lines
    match words line with
    | [_, _, file] =>
      some (none, ⟨String.ofList file, none, usageWithout without⟩ :: constraints)
    | [word, second, third, _, file] =>
      if word = "read_xdc".toList then
        some (none, ⟨String.ofList file, some (String.ofList third), usageWithout without⟩ ::
          constraints)
      else (readStage second).map fun stage => (some stage, constraints)
    | _ => none

/-- The line that makes the project. -/
def readHeader (line : List Char) : Option (String × String × String) :=
  match words line with
  | [_, name, folder, _, part] =>
    some (String.ofList name, String.ofList folder, String.ofList part)
  | _ => none

def readTop (line : List Char) : Option String :=
  match words line with
  | [_, _, top, _] => some (String.ofList top)
  | _ => none

def readAccount (script : String) : Option Design.Account :=
  match ((Text.splitAt '\n' script.toList).dropLast).splitOn [] with
  | [[header, _], sources, blockDesign, generics, constraints, [top, _], _] => do
    let (name, folder, part) ← readHeader header
    let sources ← sources.mapM readSources
    let blockDesign ← blockDesign.mapM readOne
    let generics ← generics.mapM readGenerics
    let (_, constraints) ← readConstraints constraints
    let top ← readTop top
    some ⟨name, folder, part, top, sources, blockDesign.head?, generics.flatten, constraints⟩
  | _ => none

/-! ### Words of lines -/

/-- A text without a blank and without a line feed. -/
def Plain (s : String) : Prop :=
  ' ' ∉ s.toList ∧ OneLine s

instance (s : String) : Decidable (Plain s) := inferInstanceAs (Decidable (_ ∧ _))

/-- Words without a blank come back from the line that they make. -/
theorem words_line (ws : List String) {line : String}
    (shape : line.toList = Text.joinWith ' ' (ws.map String.toList)) (ne : ws ≠ [])
    (free : ∀ w ∈ ws, ' ' ∉ w.toList) : words line.toList = ws.map String.toList := by
  rw [shape, words, Text.splitAt_joinWith (by simpa using ne)]
  intro piece hp
  obtain ⟨w, hw, rfl⟩ := List.mem_map.mp hp
  exact free w hw

theorem words_intercalate {ws : List String} (ne : ws ≠ []) (free : ∀ w ∈ ws, ' ' ∉ w.toList) :
    words (" ".intercalate ws).toList = ws.map String.toList :=
  words_line ws (toList_intercalate_blank ws) ne free

theorem words_append (s rest : String) :
    words (s ++ " " ++ rest).toList = words s.toList ++ words rest.toList := by
  rw [String.toList_append, String.toList_append, List.append_assoc]
  exact Text.splitAt_append_cons ' ' s.toList rest.toList

/-- Words in braces come back, also if there is but one, which may be empty. -/
theorem wordsInBraces_intercalate {ws : List String} (ne : ws ≠ [])
    (free : ∀ w ∈ ws, ' ' ∉ w.toList) :
    wordsInBraces ("\x7b" ++ " ".intercalate ws ++ "\x7d").toList = ws := by
  have inner : (("\x7b" ++ " ".intercalate ws ++ "\x7d").toList.drop 1).dropLast =
      (" ".intercalate ws).toList := by
    simp only [String.toList_append]
    exact List.dropLast_concat
  rw [wordsInBraces, inner, words_intercalate ne free, List.map_map]
  simp [Function.comp_def]

theorem joinWith_words (s : List Char) : Text.joinWith ' ' (words s) = s :=
  Text.joinWith_splitAt ' ' s

/-! ### Lines of commands -/

theorem readHeader_line {name folder part : String} (hname : Plain name) (hfolder : Plain folder)
    (hpart : Plain part) :
    readHeader ("create_project " ++ name ++ " " ++ folder ++ " -part " ++ part).toList =
      some (name, folder, part) := by
  rw [readHeader, words_line ["create_project", name, folder, "-part", part] _ (by simp)]
  · simp
  · simp only [List.forall_mem_cons]
    exact ⟨by decide, hname.1, hfolder.1, by decide, hpart.1, by simp⟩
  · simp only [String.toList_append, List.append_assoc]
    rfl

theorem readSources_line {library : String} {files : List String} (hlibrary : Plain library)
    (ne : files ≠ []) (hfiles : ∀ f ∈ files, Plain f) :
    readSources ("read_vhdl -library " ++ library ++ " -vhdl2008 \x7b" ++ " ".intercalate files ++
      "\x7d").toList = some (library, files) := by
  have shape : "read_vhdl -library " ++ library ++ " -vhdl2008 \x7b" ++ " ".intercalate files ++
      "\x7d" = " ".intercalate ["read_vhdl", "-library", library, "-vhdl2008"] ++ " " ++
        ("\x7b" ++ " ".intercalate files ++ "\x7d") := by
    rw [← String.toList_inj, String.toList_append (s := _ ++ " "), String.toList_append (t := " "),
      toList_intercalate_blank ["read_vhdl", "-library", library, "-vhdl2008"]]
    simp only [List.map_cons, List.map_nil, Text.joinWith, String.toList_append,
      List.append_assoc, List.cons_append]
    rfl
  rw [readSources, shape, words_append, words_intercalate (by simp)]
  · simp only [List.map_cons, List.map_nil, List.cons_append, List.nil_append, joinWith_words,
      wordsInBraces_intercalate ne fun f hf => (hfiles f hf).1, String.ofList_toList]
  · simp only [List.forall_mem_cons]
    exact ⟨by decide, by decide, hlibrary.1, by decide, by simp⟩

theorem readOne_source {file : String} (hfile : Plain file) :
    readOne ("source " ++ file).toList = some file := by
  rw [readOne, words_line ["source", file] _ (by simp)]
  · simp
  · simp only [List.forall_mem_cons]
    exact ⟨by decide, hfile.1, by simp⟩
  · simp only [String.toList_append]
    rfl

theorem readTop_line {top : String} (htop : Plain top) :
    readTop ("set_property top " ++ top ++ " [current_fileset]").toList = some top := by
  rw [readTop, words_line ["set_property", "top", top, "[current_fileset]"] _ (by simp)]
  · simp
  · simp only [List.forall_mem_cons]
    exact ⟨by decide, by decide, htop.1, by decide, by simp⟩
  · simp only [String.toList_append, List.append_assoc]
    rfl

theorem readBinding_eq {name : String} (free : '=' ∉ name.toList) (value : String) :
    readBinding (name ++ "=" ++ value) = (name, value) := by
  have chars : (name ++ "=" ++ value).toList = name.toList ++ '=' :: value.toList := by simp
  rw [readBinding, chars, Text.cutAt_append free]
  simp

theorem readGenerics_line {bs : List (String × String)} (ne : bs ≠ [])
    (h : ∀ b ∈ bs, Plain b.1 ∧ Plain b.2 ∧ '=' ∉ b.1.toList) :
    readGenerics ("set_property generic \x7b" ++ Design.bindingsText bs ++
      "\x7d [current_fileset]").toList = some bs := by
  have shape : "set_property generic \x7b" ++ Design.bindingsText bs ++ "\x7d [current_fileset]" =
      " ".intercalate ["set_property", "generic"] ++ " " ++
        (("\x7b" ++ Design.bindingsText bs ++ "\x7d") ++ " " ++ "[current_fileset]") := by
    rw [← String.toList_inj, String.toList_append (s := _ ++ " "), String.toList_append (t := " "),
      toList_intercalate_blank ["set_property", "generic"]]
    simp only [String.toList_append, List.append_assoc]
    rfl
  have free : ∀ w ∈ bs.map (fun b => b.1 ++ "=" ++ b.2), ' ' ∉ w.toList := by
    intro w hw
    obtain ⟨b, hb, rfl⟩ := List.mem_map.mp hw
    obtain ⟨hname, hvalue, -⟩ := h b hb
    simp [hname.1, hvalue.1]
  have last : words "[current_fileset]".toList = ["[current_fileset]".toList] := by
    exact Text.splitAt_of_notMem (by decide)
  rw [readGenerics, shape, words_append, words_append, words_intercalate (by simp), last]
  · simp only [List.map_cons, List.map_nil, List.cons_append, List.nil_append,
      List.dropLast_concat, joinWith_words, Design.bindingsText]
    rw [wordsInBraces_intercalate (by simpa using ne) free, List.map_map]
    refine congrArg some ((List.map_congr_left fun b hb => ?_).trans (List.map_id bs))
    exact readBinding_eq (h b hb).2.2 b.2
  · simp only [List.forall_mem_cons]
    exact ⟨by decide, by decide, by simp⟩

/-! ### Lines for constraints -/

theorem words_readWhole {file : String} (hfile : Plain file) :
    words ("read_xdc -unmanaged " ++ file).toList =
      ["read_xdc".toList, "-unmanaged".toList, file.toList] := by
  refine words_line ["read_xdc", "-unmanaged", file] ?_ (by simp) ?_
  · simp only [String.toList_append]
    rfl
  · simp only [List.forall_mem_cons]
    exact ⟨by decide, by decide, hfile.1, by simp⟩

theorem words_readConfined {reference file : String} (href : Plain reference)
    (hfile : Plain file) :
    words ("read_xdc -ref " ++ reference ++ " -unmanaged " ++ file).toList =
      ["read_xdc".toList, "-ref".toList, reference.toList, "-unmanaged".toList, file.toList] := by
  refine words_line ["read_xdc", "-ref", reference, "-unmanaged", file] ?_ (by simp) ?_
  · simp only [String.toList_append, List.append_assoc]
    rfl
  · simp only [List.forall_mem_cons]
    exact ⟨by decide, by decide, href.1, by decide, hfile.1, by simp⟩

theorem words_leaveOut (stage : Stage) {file : String} (hfile : Plain file) :
    words ("set_property " ++ stageProperty stage ++ " false [get_files " ++ file ++ "]").toList =
      ["set_property".toList, (stageProperty stage).toList, "false".toList,
        "[get_files".toList, (file ++ "]").toList] := by
  refine words_line ["set_property", stageProperty stage, "false", "[get_files", file ++ "]"] ?_
    (by simp) ?_
  · simp only [List.map_cons, List.map_nil, Text.joinWith, String.toList_append, List.append_assoc]
    rfl
  · simp only [List.forall_mem_cons]
    have property : ' ' ∉ (stageProperty stage).toList := by cases stage <;> decide
    exact ⟨by decide, property, by decide, by decide, by simp [hfile.1], by simp⟩

theorem readStage_stageProperty (stage : Stage) :
    readStage (stageProperty stage).toList = some stage := by
  cases stage <;> decide

theorem usageWithout_leftOut (usage : Usage) : usageWithout (Design.leftOut? usage) = usage := by
  cases usage <;> rfl

/-- A line that reads a constraint takes up the stage that the line behind it left out. -/
theorem readConstraints_readConstraint {reference : Option String} {file : String}
    (href : ∀ r ∈ reference, Plain r) (hfile : Plain file) {rest : List (List Char)}
    {without : Option Stage} {cs : List Design.ConstraintAccount}
    (read : readConstraints rest = some (without, cs)) :
    readConstraints ((Command.readConstraint reference file).lines.map String.toList ++ rest) =
      some (none, ⟨file, reference, usageWithout without⟩ :: cs) := by
  cases reference with
  | none =>
    simp only [Command.lines, List.map_cons, List.map_nil, List.cons_append, List.nil_append,
      readConstraints, read, words_readWhole hfile, bind, Option.bind, String.ofList_toList]
  | some r =>
    simp only [Command.lines, List.map_cons, List.map_nil, List.cons_append, List.nil_append,
      readConstraints, read, words_readConfined (href r rfl) hfile, bind, Option.bind,
      String.ofList_toList, if_true]

theorem readConstraints_leaveOut (stage : Stage) {file : String} (hfile : Plain file)
    {rest : List (List Char)} {without : Option Stage} {cs : List Design.ConstraintAccount}
    (read : readConstraints rest = some (without, cs)) :
    readConstraints ((Command.leaveOut stage file).lines.map String.toList ++ rest) =
      some (some stage, cs) := by
  have other : "set_property".toList ≠ "read_xdc".toList := by decide
  simp only [Command.lines, List.map_cons, List.map_nil, List.cons_append, List.nil_append,
    readConstraints, read, words_leaveOut stage hfile, bind, Option.bind, if_neg other,
    readStage_stageProperty, Option.map_some]

/-- The lines for constraints give the constraints back, and nothing is left out in front of
them. -/
theorem readConstraints_lines {cs : List Design.ConstraintAccount}
    (h : ∀ c ∈ cs, Plain c.file ∧ ∀ r ∈ c.reference, Plain r) :
    readConstraints ((lines (cs.flatMap Design.ConstraintAccount.commands)).map String.toList) =
      some (none, cs) := by
  induction cs with
  | nil => rfl
  | cons c cs ih =>
    obtain ⟨hfile, href⟩ := h c List.mem_cons_self
    have rest := ih fun c' hc => h c' (List.mem_cons_of_mem _ hc)
    rw [List.flatMap_cons, lines_append, List.map_append, Design.ConstraintAccount.commands,
      lines_cons, List.map_append, List.append_assoc]
    have left : readConstraints
        ((lines ((Design.leftOut? c.usage).toList.map fun stage =>
          Command.leaveOut stage c.file)).map String.toList ++
          (lines (cs.flatMap Design.ConstraintAccount.commands)).map String.toList) =
        some (Design.leftOut? c.usage, cs) := by
      cases Design.leftOut? c.usage with
      | none => exact rest
      | some stage =>
        have step := readConstraints_leaveOut stage hfile rest
        simpa [lines] using step
    rw [readConstraints_readConstraint href hfile left, usageWithout_leftOut]

/-! ### Groups of lines -/

def linesOf (group : List Command) : List (List Char) :=
  (lines group).map String.toList

theorem linesOf_append (first second : List Command) :
    linesOf (first ++ second) = linesOf first ++ linesOf second := by
  simp [linesOf, lines_append]

theorem linesOf_intercalate_blank (groups : List (List Command)) :
    linesOf ([.blank].intercalate groups) = [[]].intercalate (groups.map linesOf) := by
  induction groups with
  | nil => rfl
  | cons group groups ih =>
    cases groups with
    | nil => simp [List.intercalate_singleton]
    | cons next rest =>
      rw [List.intercalate_cons_cons, linesOf_append, linesOf_append, ih, List.map_cons,
        List.map_cons, List.map_cons, List.intercalate_cons_cons]
      rfl

theorem mem_intercalate_blank {groups : List (List Command)} {c : Command}
    (h : c ∈ [.blank].intercalate groups) : c = .blank ∨ ∃ group ∈ groups, c ∈ group := by
  induction groups with
  | nil => simp at h
  | cons group groups ih =>
    cases groups with
    | nil => exact .inr ⟨group, List.mem_cons_self, by simpa [List.intercalate_singleton] using h⟩
    | cons next rest =>
      rw [List.intercalate_cons_cons, List.mem_append, List.mem_append, List.mem_singleton] at h
      rcases h with (h | h) | h
      · exact .inr ⟨group, List.mem_cons_self, h⟩
      · exact .inl h
      · rcases ih h with blank | ⟨g, hg, hc⟩
        · exact .inl blank
        · exact .inr ⟨g, List.mem_cons_of_mem _ hg, hc⟩

/-- Only a blank command has an empty line. -/
theorem ne_empty_of_mem_lines {c : Command} (h : c ≠ .blank) : ∀ l ∈ c.lines, l ≠ "" := by
  cases c with
  | blank => exact absurd rfl h
  | readConstraint reference file => cases reference <;> simp [Command.lines]
  | _ => simp [Command.lines, complainIf]

/-- Groups without blank commands come back from their lines. -/
theorem splitOn_linesOf {groups : List (List Command)} (ne : groups ≠ [])
    (solid : ∀ group ∈ groups, ∀ c ∈ group, c ≠ .blank) :
    (linesOf ([.blank].intercalate groups)).splitOn [] = groups.map linesOf := by
  rw [linesOf_intercalate_blank, List.splitOn_intercalate]
  · intro ls hls empty
    obtain ⟨group, hgroup, rfl⟩ := List.mem_map.mp hls
    obtain ⟨l, hl, hempty⟩ := List.mem_map.mp empty
    obtain ⟨c, hc, hline⟩ := List.mem_flatMap.mp hl
    exact ne_empty_of_mem_lines (solid group hgroup c hc) l hline (String.toList_eq_nil_iff.mp hempty)
  · simpa using ne

end Script

open Script

namespace Design.Account

/-- No text in an account holds a blank or a line feed, and no name of a generic an equals sign. -/
structure Plain (a : Account) : Prop where
  name : Script.Plain a.name
  folder : Script.Plain a.folder
  part : Script.Plain a.part
  top : Script.Plain a.top
  sources : ∀ s ∈ a.sources, Script.Plain s.1 ∧ ∀ f ∈ s.2, Script.Plain f
  blockDesign : ∀ f ∈ a.blockDesign, Script.Plain f
  generics : ∀ b ∈ a.generics, Script.Plain b.1 ∧ Script.Plain b.2 ∧ '=' ∉ b.1.toList
  constraints : ∀ c ∈ a.constraints, Script.Plain c.file ∧ ∀ r ∈ c.reference, Script.Plain r

variable {a : Account}

theorem oneLine_bindingsText {bs : List (String × String)}
    (h : ∀ b ∈ bs, Script.Plain b.1 ∧ Script.Plain b.2 ∧ '=' ∉ b.1.toList) :
    OneLine (bindingsText bs) := by
  refine oneLine_intercalate_blank fun s hs => ?_
  obtain ⟨b, hb, rfl⟩ := List.mem_map.mp hs
  obtain ⟨hname, hvalue, -⟩ := h b hb
  simp only [oneLine_append]
  exact ⟨⟨hname.2, by decide⟩, hvalue.2⟩

/-- The commands in the groups of a plain account hold no line feed, and none is blank. -/
theorem Plain.groups_spec (plain : a.Plain) :
    ∀ group ∈ a.groups, ∀ c ∈ group, c ≠ .blank ∧ ∀ t ∈ c.operands, OneLine t := by
  simp only [groups, List.forall_mem_cons]
  refine ⟨⟨⟨by simp, ?_⟩, ⟨by simp, by simp [Command.operands]⟩, by simp⟩, ?_, ?_, ?_, ?_,
    ⟨⟨by simp, ?_⟩, ⟨by simp, by simp [Command.operands]⟩, by simp⟩,
    ⟨⟨by simp, by simp [Command.operands]⟩, by simp⟩, by simp⟩
  · simp [Command.operands, plain.name.2, plain.folder.2, plain.part.2]
  · intro c hc
    obtain ⟨s, hs, rfl⟩ := List.mem_map.mp hc
    obtain ⟨hlibrary, hfiles⟩ := plain.sources s hs
    refine ⟨by simp, ?_⟩
    simp only [Command.operands, List.forall_mem_cons]
    exact ⟨hlibrary.2, fun f hf => (hfiles f hf).2⟩
  · intro c hc
    obtain ⟨f, hf, rfl⟩ := List.mem_map.mp hc
    have line := (plain.blockDesign f (by simpa using hf)).2
    exact ⟨by simp, by simpa [Command.operands] using line⟩
  · intro c hc
    unfold genericCommands at hc
    split at hc
    · simp at hc
    · obtain rfl := List.mem_singleton.mp hc
      exact ⟨by simp, by simpa [Command.operands] using oneLine_bindingsText plain.generics⟩
  · intro c hc
    obtain ⟨k, hk, hc⟩ := List.mem_flatMap.mp hc
    obtain ⟨hfile, href⟩ := plain.constraints k hk
    rcases List.mem_cons.mp hc with rfl | hc
    · refine ⟨by simp, ?_⟩
      cases reference : k.reference with
      | none => simpa [Command.operands] using hfile.2
      | some r => simpa [Command.operands] using ⟨(href r reference).2, hfile.2⟩
    · obtain ⟨stage, -, rfl⟩ := List.mem_map.mp hc
      exact ⟨by simp, by simpa [Command.operands] using hfile.2⟩
  · simpa [Command.operands] using plain.top.2

/-- The lines of the script of a plain account come back from its text, group by group. -/
theorem Plain.splitOn_text (plain : a.Plain) :
    ((Text.splitAt '\n' (text a.commands).toList).dropLast).splitOn [] =
      a.groups.map linesOf := by
  have free : ∀ c ∈ a.commands, ∀ t ∈ c.operands, OneLine t := by
    intro c hc
    rcases mem_intercalate_blank hc with rfl | ⟨group, hg, hc⟩
    · simp [Command.operands]
    · exact (plain.groups_spec group hg c hc).2
  rw [splitAt_text free, List.dropLast_concat]
  exact splitOn_linesOf (by simp [groups]) fun group hg c hc => (plain.groups_spec group hg c hc).1

/-! ### Reading an account -/

theorem mapM_map_eq_some {α β : Type} {f : β → Option α} {g : α → β} {xs : List α}
    (h : ∀ x ∈ xs, f (g x) = some x) : (xs.map g).mapM f = some xs := by
  rw [@mapM_map_eq_some_map _ _ _ f g id xs h, List.map_id]

theorem linesOf_map {α : Type} {command : α → Command} {line : α → String}
    (single : ∀ x, (command x).lines = [line x]) (xs : List α) :
    linesOf (xs.map command) = xs.map fun x => (line x).toList := by
  induction xs with
  | nil => rfl
  | cons x xs ih =>
    rw [List.map_cons, List.map_cons, ← ih, linesOf, lines_cons, single x]
    rfl

theorem Plain.mapM_readSources (plain : a.Plain) (filled : ∀ s ∈ a.sources, s.2 ≠ []) :
    (linesOf a.sourceCommands).mapM readSources = some a.sources := by
  rw [sourceCommands, linesOf_map (fun _ => rfl)]
  refine mapM_map_eq_some fun s hs => ?_
  obtain ⟨hlibrary, hfiles⟩ := plain.sources s hs
  exact readSources_line hlibrary (filled s hs) hfiles

theorem Plain.mapM_readOne (plain : a.Plain) :
    (linesOf a.blockDesignCommands).mapM readOne = some a.blockDesign.toList := by
  rw [blockDesignCommands, linesOf_map (fun _ => rfl)]
  exact mapM_map_eq_some fun f hf => readOne_source (plain.blockDesign f (by simpa using hf))

theorem Plain.mapM_readGenerics (plain : a.Plain) :
    ∃ read, (linesOf a.genericCommands).mapM readGenerics = some read ∧
      read.flatten = a.generics := by
  by_cases empty : a.generics = []
  · exact ⟨[], by simp [genericCommands, empty, linesOf, lines], by simp [empty]⟩
  · refine ⟨[a.generics], ?_, by simp⟩
    have line := readGenerics_line empty plain.generics
    simp only [genericCommands, if_neg empty, linesOf, lines, List.flatMap_cons, List.flatMap_nil,
      Command.lines, List.append_nil, List.map_cons, List.map_nil, List.mapM_cons, line]
    rfl

/-- The text of the script of a plain account gives the account back. -/
theorem readAccount_text (plain : a.Plain) (filled : ∀ s ∈ a.sources, s.2 ≠ []) :
    readAccount (text a.commands) = some a := by
  obtain ⟨generics, hgenerics, flat⟩ := plain.mapM_readGenerics
  have header := readHeader_line plain.name plain.folder plain.part
  have top := readTop_line plain.top
  have constraints : readConstraints (linesOf a.constraintCommands) = some (none, a.constraints) :=
    readConstraints_lines plain.constraints
  have first : linesOf [.createProject a.name a.folder a.part, .setLanguage] =
      [("create_project " ++ a.name ++ " " ++ a.folder ++ " -part " ++ a.part).toList,
        "set_property target_language VHDL [current_project]".toList] := rfl
  have last : linesOf [.setTop a.top, .reorderFiles] =
      [("set_property top " ++ a.top ++ " [current_fileset]").toList,
        "reorder_files -auto -disable_unused".toList] := rfl
  have single : a.blockDesign.toList.head? = a.blockDesign := by cases a.blockDesign <;> rfl
  rw [readAccount, plain.splitOn_text]
  simp only [groups, List.map_cons, List.map_nil, first, last, header, top, constraints,
    plain.mapM_readSources filled, plain.mapM_readOne, hgenerics, flat, single, bind, Option.bind]

end Design.Account

namespace Design

/-- A script of creation can be read back: from its text comes the account of the project, if the
account is plain. So two projects with plain accounts and one script have the same account. -/
theorem creation_recoverable :
    (∀ (x : Design) (d : Disk) (folder : Path) (commands : List Command),
      x.creation d folder = .ok commands →
        ∃ a, x.account? d folder = some a ∧ (a.Plain → readAccount (text commands) = some a)) ∧
    ∀ (x x' : Design) (d d' : Disk) (folder folder' : Path) (commands commands' : List Command)
      (a a' : Account), x.creation d folder = .ok commands →
        x'.creation d' folder' = .ok commands' → x.account? d folder = some a →
        x'.account? d' folder' = some a' → a.Plain → a'.Plain → text commands = text commands' →
          a = a' := by
  have read : ∀ {x : Design} {d : Disk} {folder : Path} {commands : List Command},
      x.creation d folder = .ok commands →
        ∃ a, x.account? d folder = some a ∧ (a.Plain → readAccount (text commands) = some a) := by
    intro x d folder commands made
    obtain ⟨a, told, rfl⟩ := exists_account_of_creation made
    exact ⟨a, told, fun plain => Account.readAccount_text plain (sources_of_account told)⟩
  refine ⟨fun x d folder commands made => read made, ?_⟩
  intro x x' d d' folder folder' commands commands' a a' made made' told told' plain plain' same
  obtain ⟨b, hb, back⟩ := read made
  obtain ⟨b', hb', back'⟩ := read made'
  obtain rfl : a = b := Option.some.inj (told.symm.trans hb)
  obtain rfl : a' = b' := Option.some.inj (told'.symm.trans hb')
  have : some a = some a' := by rw [← back plain, ← back' plain', same]
  exact Option.some.inj this

theorem plain_sampleAccount : sampleAccount.Plain := by
  constructor <;> decide

/-- The sample comes back from its script. -/
theorem sample_recoverable :
    ∃ commands, sample.creation (.empty ["work"]) ⟨"/work/out"⟩ = .ok commands ∧
      readAccount (text commands) = some sampleAccount := by
  have made : sample.creation (.empty ["work"]) ⟨"/work/out"⟩ = .ok sampleAccount.commands := by
    rw [creation_eq_commands, account?_sample]
    rfl
  obtain ⟨a, told, back⟩ := creation_recoverable.1 _ _ _ _ made
  obtain rfl : sampleAccount = a := Option.some.inj (account?_sample.symm.trans told)
  exact ⟨_, made, back plain_sampleAccount⟩

end Design

end FpgaProject
