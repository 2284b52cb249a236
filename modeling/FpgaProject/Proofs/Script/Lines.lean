import FpgaProject.Proofs.Text.Pieces
import FpgaProject.Script.Command

/-!
The text of a script and its lines.

A command holds texts from outside, `Command.operands`. As long as none of them holds a line feed, no
line does (`oneLine_lines`), and then cutting the text of a script at line feeds gives its lines
again (`splitAt_text`), so whatever reads a script may read it line by line.
-/

namespace FpgaProject.Script

/-! ### Texts without a line feed -/

/-- A text that holds no line feed. -/
def OneLine (s : String) : Prop := '\n' ∉ s.toList

instance (s : String) : Decidable (OneLine s) := inferInstanceAs (Decidable (_ ∉ _))

@[simp] theorem oneLine_append {s t : String} : OneLine (s ++ t) ↔ OneLine s ∧ OneLine t := by
  simp [OneLine, not_or]

theorem toList_intercalate_blank (ss : List String) :
    (" ".intercalate ss).toList = Text.joinWith ' ' (ss.map String.toList) := by
  rw [← Text.toList_intercalate_singleton]
  rfl

theorem oneLine_intercalate_blank {ss : List String} (h : ∀ s ∈ ss, OneLine s) :
    OneLine (" ".intercalate ss) := by
  intro mem
  rw [toList_intercalate_blank] at mem
  rcases Text.mem_joinWith mem with e | ⟨piece, hp, hm⟩
  · exact absurd e (by decide)
  · obtain ⟨s, hs, rfl⟩ := List.mem_map.mp hp
    exact h s hs hm

theorem oneLine_repr (n : Nat) : OneLine n.repr := by
  intro mem
  have member : '\n' ∈ Nat.toDigits 10 n := by simpa [Nat.repr] using mem
  have digit := Nat.isDigit_of_mem_toDigits (by decide) (by decide) member
  exact absurd digit (by decide)

theorem oneLine_toString_int (i : Int) : OneLine (toString i) := by
  cases i with
  | ofNat n => exact oneLine_repr n
  | negSucc n =>
    change OneLine ("-" ++ (n + 1).repr)
    exact oneLine_append.mpr ⟨by decide, oneLine_repr _⟩

/-! ### The lines of a script -/

/-- The texts that a command holds. -/
def Command.operands : Command → List String
  | .createProject name folder part => [name, folder, part]
  | .readSources library files => library :: files
  | .readConstraint (some reference) file => [reference, file]
  | .source t | .setGenerics t | .readConstraint none t | .leaveOut _ t | .setTop t
  | .openProject t | .launch t | .await t | .requireComplete t | .openRun t | .requireSlack _ t
  | .writeBitstream t | .writeHardware t => [t]
  | .blank | .setLanguage | .reorderFiles | .limitThreads _ | .exit => []

/-- No line of a command holds a line feed if none of its texts does. -/
theorem oneLine_lines {c : Command} (h : ∀ t ∈ c.operands, OneLine t) : ∀ l ∈ c.lines, OneLine l := by
  have blocks : ∀ {condition complaint : String}, OneLine condition → OneLine complaint →
      ∀ l ∈ complainIf condition complaint, OneLine l := by
    intro condition complaint asked said l hl
    simp only [complainIf, List.mem_cons, List.not_mem_nil, or_false] at hl
    rcases hl with rfl | rfl | rfl | rfl
    · simp only [oneLine_append]
      exact ⟨⟨by decide, asked⟩, by decide⟩
    · simp only [oneLine_append]
      exact ⟨⟨by decide, said⟩, by decide⟩
    · decide
    · decide
  have one : ∀ {line : String}, OneLine line → ∀ l ∈ [line], OneLine l := by
    intro line free l hl
    obtain rfl := List.mem_singleton.mp hl
    exact free
  cases c with
  | blank => exact one (by decide)
  | setLanguage => exact one (by decide)
  | reorderFiles => exact one (by decide)
  | exit => exact one (by decide)
  | createProject name folder part =>
    simp only [Command.operands, List.mem_cons, List.not_mem_nil, or_false, forall_eq_or_imp,
      forall_eq] at h
    obtain ⟨hname, hfolder, hpart⟩ := h
    refine one ?_
    simp only [oneLine_append]
    exact ⟨⟨⟨⟨⟨by decide, hname⟩, by decide⟩, hfolder⟩, by decide⟩, hpart⟩
  | readSources library files =>
    obtain ⟨hlibrary, hfiles⟩ := List.forall_mem_cons.mp h
    refine one ?_
    simp only [oneLine_append]
    exact ⟨⟨⟨⟨by decide, hlibrary⟩, by decide⟩, oneLine_intercalate_blank hfiles⟩,
      by decide⟩
  | readConstraint reference file =>
    cases reference with
    | none =>
      exact one (oneLine_append.mpr ⟨by decide, h _ List.mem_cons_self⟩)
    | some reference =>
      obtain ⟨href, hrest⟩ := List.forall_mem_cons.mp h
      refine one ?_
      simp only [oneLine_append]
      exact ⟨⟨⟨by decide, href⟩, by decide⟩, hrest _ List.mem_cons_self⟩
  | leaveOut stage file =>
    have property : OneLine (stageProperty stage) := by cases stage <;> decide
    refine one ?_
    simp only [oneLine_append]
    exact ⟨⟨⟨⟨by decide, property⟩, by decide⟩, h _ List.mem_cons_self⟩, by decide⟩
  | limitThreads count =>
    exact one (oneLine_append.mpr ⟨by decide, oneLine_repr count⟩)
  | setGenerics t =>
    refine one ?_
    simp only [oneLine_append]
    exact ⟨⟨by decide, h _ List.mem_cons_self⟩, by decide⟩
  | setTop t =>
    refine one ?_
    simp only [oneLine_append]
    exact ⟨⟨by decide, h _ List.mem_cons_self⟩, by decide⟩
  | source t | openProject t | launch t | await t | openRun t | writeBitstream t
  | writeHardware t =>
    exact one (oneLine_append.mpr ⟨by decide, h _ List.mem_cons_self⟩)
  | requireComplete run =>
    refine blocks ?_ ?_
    all_goals
      simp only [oneLine_append]
      exact ⟨⟨by decide, h _ List.mem_cons_self⟩, by decide⟩
  | requireSlack limit complaint =>
    refine blocks ?_ (h _ List.mem_cons_self)
    simp only [oneLine_append]
    exact ⟨⟨by decide, oneLine_toString_int limit⟩, by decide⟩

theorem lines_append (s t : List Command) : lines (s ++ t) = lines s ++ lines t :=
  List.flatMap_append

theorem lines_cons (c : Command) (s : List Command) : lines (c :: s) = c.lines ++ lines s :=
  List.flatMap_cons

/-- The text of a script is its lines, each closed by a line feed. -/
theorem toList_text (s : List Command) :
    (text s).toList = ((lines s).map String.toList).flatMap (· ++ ['\n']) := by
  simp [text, List.flatMap_map]

/-- The text of a script, cut at line feeds: its lines, and nothing behind the last one. -/
theorem splitAt_text {s : List Command} (free : ∀ c ∈ s, ∀ t ∈ c.operands, OneLine t) :
    Text.splitAt '\n' (text s).toList = (lines s).map String.toList ++ [[]] := by
  rw [toList_text]
  apply Text.splitAt_closed
  intro l hl
  obtain ⟨line, member, rfl⟩ := List.mem_map.mp hl
  obtain ⟨c, hc, hline⟩ := List.mem_flatMap.mp member
  exact oneLine_lines (free c hc) line hline

end FpgaProject.Script
