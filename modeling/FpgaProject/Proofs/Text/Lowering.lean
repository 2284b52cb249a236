import Mathlib
import FpgaProject.Error

/-!
Lowering a message that is lowered already.

Lowering leaves a text as it is or lowers its first character (`lowered_eq`), and the first word
tells which (`lowered_of_keepsCase`, `lowered_of_not_keepsCase`). A first character that has been
lowered does not change again, so it does not matter whether the first word is still read as an
acronym afterwards, and a message that is handed through several errors is said like one that is
handed through one (`message_wrapped`). Main statement: `lowering_stable`.
-/

namespace FpgaProject

namespace Text

/-! ### The first word -/

/-- A word is the first one of a text: only blanks stand before it, none in it, and behind it there
is a blank or nothing. -/
def IsFirstWord (word s : List Char) : Prop :=
  word ≠ [] ∧ ∃ before after, s = before ++ (word ++ after) ∧
    (∀ c ∈ before, isBlank c = true) ∧ (∀ c ∈ word, isBlank c = false) ∧
    ∀ c ∈ after.head?, isBlank c = true

theorem isFirstWord_iff {word s : List Char} :
    IsFirstWord word s ↔ word ≠ [] ∧ firstWord s = word := by
  refine and_congr_right fun given => ⟨?_, ?_⟩
  · rintro ⟨before, after, rfl, blank, whole, ends⟩
    obtain ⟨c, cs, rfl⟩ := List.exists_cons_of_ne_nil given
    have start : isBlank c = false := whole c List.mem_cons_self
    have stop : after.takeWhile (fun c => !isBlank c) = [] := by
      cases after with
      | nil => rfl
      | cons a as => simp [ends a rfl]
    rw [firstWord, List.dropWhile_append_of_pos blank, List.cons_append,
      List.dropWhile_cons_of_neg (by simp [start]), ← List.cons_append,
      List.takeWhile_append_of_pos (by simpa using whole), stop, List.append_nil]
  · rintro rfl
    refine ⟨s.takeWhile isBlank, (s.dropWhile isBlank).dropWhile (fun c => !isBlank c), ?_, ?_,
      fun c => not_isBlank_of_mem_firstWord, ?_⟩
    · rw [firstWord, List.takeWhile_append_dropWhile, List.takeWhile_append_dropWhile]
    · exact fun c member => List.mem_takeWhile_imp member
    · intro c first
      have := List.head?_dropWhile_not (fun c => !isBlank c) (s.dropWhile isBlank)
      rw [Option.mem_def.mp first] at this
      simpa using this

/-- A text keeps its first letter: it has no word, or its first word has more than one byte and no
ASCII lower-case letter. -/
def KeepsCase (s : String) : Prop :=
  (∀ c ∈ s.toList, isBlank c = true) ∨
    ∃ word, IsFirstWord word s.toList ∧ 1 < (String.ofList word).utf8ByteSize ∧
      ∀ c ∈ word, c.isLower = false

theorem utf8ByteSize_ofList (s : List Char) : (String.ofList s).utf8ByteSize = byteCount s := by
  rw [← String.utf8Len_toList, String.toList_ofList]
  induction s with
  | nil => rfl
  | cons c s ih => rw [String.utf8Len_cons, ih, byteCount, Nat.add_comm]

theorem keepsCase_iff {s : String} :
    KeepsCase s ↔ firstWord s.toList = [] ∨ isAcronym (firstWord s.toList) = true := by
  unfold KeepsCase
  rw [firstWord_eq_nil_iff]
  refine or_congr_right' fun worded => ?_
  have given : firstWord s.toList ≠ [] := mt firstWord_eq_nil_iff.mp worded
  simp only [isFirstWord_iff, utf8ByteSize_ofList, isAcronym, Bool.and_eq_true, decide_eq_true_eq,
    List.all_eq_true, Bool.not_eq_true']
  constructor
  · rintro ⟨word, ⟨-, rfl⟩, acronym⟩
    exact acronym
  · intro acronym
    exact ⟨_, ⟨given, rfl⟩, acronym⟩

/-! ### Lowering once -/

theorem lowered_of_keepsCase {s : String} (keeps : KeepsCase s) : lowered s = s := by
  have stays : ((firstWord s.toList).isEmpty || isAcronym (firstWord s.toList)) = true := by
    simpa using keepsCase_iff.mp keeps
  simp [lowered, stays]

theorem lowered_of_not_keepsCase {s : String} (lowers : ¬ KeepsCase s) :
    lowered s = String.ofList (lowerHead s.toList) := by
  have falls : ((firstWord s.toList).isEmpty || isAcronym (firstWord s.toList)) = false := by
    simpa [not_or] using mt keepsCase_iff.mpr lowers
  simp [lowered, falls]

/-- Lowering leaves a text as it is or lowers its first character. -/
theorem lowered_eq (s : String) :
    lowered s = s ∨ lowered s = String.ofList (lowerHead s.toList) := by
  by_cases keeps : KeepsCase s
  · exact .inl (lowered_of_keepsCase keeps)
  · exact .inr (lowered_of_not_keepsCase keeps)

/-- An ASCII letter has one byte in either case. -/
theorem utf8Size_toLower (c : Char) : c.toLower.utf8Size = c.utf8Size := by
  by_cases upper : c.isUpper = true
  · have bounds : 'A'.val ≤ c.val ∧ c.val ≤ 'Z'.val := by simpa [Char.isUpper] using upper
    have high := UInt32.le_iff_toNat_le.mp bounds.2
    have one : c.utf8Size = 1 :=
      Char.utf8Size_eq_one_iff.mpr (UInt32.le_iff_toNat_le.mpr (high.trans (by decide)))
    rw [one, Char.toLower, dif_pos bounds, Char.utf8Size_eq_one_iff, UInt32.le_iff_toNat_le]
    simp at *
    omega
  · rw [Char.toLower_eq_of_not_isUpper upper]

theorem byteCount_lowerHead (s : List Char) : byteCount (lowerHead s) = byteCount s := by
  cases s with
  | nil => rfl
  | cons c s => simp only [lowerHead, byteCount, utf8Size_toLower]

/-! ### Lowering again -/

theorem toLower_toLower (c : Char) : c.toLower.toLower = c.toLower :=
  Char.toLower_eq_of_not_isUpper (by simp)

theorem lowerHead_lowerHead (s : List Char) : lowerHead (lowerHead s) = lowerHead s := by
  cases s with
  | nil => rfl
  | cons c s => simp only [lowerHead, toLower_toLower]

/-- A text that has been lowered is lowered. The first word may count as an acronym then or not: its
first character does not change any more. -/
theorem lowered_lowered (s : String) : lowered (lowered s) = lowered s := by
  rcases lowered_eq s with same | once
  · rw [same, same]
  · rw [once]
    rcases lowered_eq (String.ofList (lowerHead s.toList)) with same | again
    · exact same
    · rw [again, String.toList_ofList, lowerHead_lowerHead]

theorem lowered_iterate (s : String) (n : Nat) : lowered (lowered^[n] s) = lowered s := by
  induction n with
  | zero => rfl
  | succ n ih => rw [Function.iterate_succ_apply', lowered_lowered, ih]

end Text

/-! ### Errors inside errors -/

/-- The errors that say another one inside themselves. -/
def Error.wrappers (file : Path) : List (Error → Error) :=
  [.toolFailed, .specializationLoad file, .configParse file]

/-- Such an error says the other one lowered, behind a text of its own. -/
theorem Error.exists_front {file : Path} {wrap : Error → Error} (wraps : wrap ∈ wrappers file) :
    ∃ front, ∀ cause coloured,
      (wrap cause).message coloured = front ++ Text.lowered (cause.message coloured) := by
  simp only [wrappers, List.mem_cons, List.not_mem_nil, or_false] at wraps
  rcases wraps with rfl | rfl | rfl
  · exact ⟨"failed to execute vivado process: ", fun _ _ => rfl⟩
  · exact ⟨"failed to load module specialization " ++ file.quoted ++ ": ", fun _ _ => rfl⟩
  · exact ⟨"failed to parse " ++ file.quoted ++ ": ", fun _ _ => rfl⟩

theorem Error.message_other (coloured : Bool) (s : String) :
    (Error.other s).message coloured = s := rfl

/-- A message that is said inside an error may have been lowered any number of times. -/
theorem Error.message_wrapped {file : Path} {wrap : Error → Error} (wraps : wrap ∈ wrappers file)
    (coloured : Bool) (s : String) (n : Nat) :
    (wrap (.other (Text.lowered^[n] s))).message coloured = (wrap (.other s)).message coloured := by
  obtain ⟨front, said⟩ := exists_front wraps
  rw [said, said, message_other, message_other, Text.lowered_iterate]

namespace Text

/-- Lowering keeps the length of a text and all of its characters but the first, which is left or
lowered. It is left if the text has no word or an acronym as its first word, and is no ASCII
upper-case letter any more otherwise. Lowering any number of times is lowering once, also for what
is said inside an error. -/
theorem lowering_stable (s : String) :
    (lowered s).length = s.length ∧ (lowered s).utf8ByteSize = s.utf8ByteSize ∧
    (∀ i, (lowered s).toList[i]? ≠ s.toList[i]? →
      i = 0 ∧ (lowered s).toList[i]? = s.toList[i]?.map Char.toLower) ∧
    (KeepsCase s → lowered s = s) ∧
    (¬ KeepsCase s → ∀ c ∈ (lowered s).toList.head?, c.isUpper = false) ∧
    lowered (lowered s) = lowered s ∧
    (∀ n, lowered^[n + 1] s = lowered s) ∧
    ∀ (file : Path) (coloured : Bool) (n : Nat), ∀ wrap ∈ Error.wrappers file,
      (wrap (.other (lowered^[n] s))).message coloured = (wrap (.other s)).message coloured := by
  refine ⟨?length, ?size, ?first, lowered_of_keepsCase, ?lowers, lowered_lowered s, ?again,
    fun file coloured n wrap wraps => Error.message_wrapped wraps coloured s n⟩
  case length =>
    rcases lowered_eq s with same | once
    · rw [same]
    · rw [once, String.length_ofList, length_lowerHead, String.length_toList]
  case size =>
    rcases lowered_eq s with same | once
    · rw [same]
    · rw [once, utf8ByteSize_ofList, byteCount_lowerHead, ← utf8ByteSize_ofList,
        String.ofList_toList]
  case first =>
    intro i differs
    rcases lowered_eq s with same | once
    · rw [same] at differs
      exact absurd rfl differs
    · rw [once, String.toList_ofList] at differs ⊢
      cases chars : s.toList with
      | nil => simp [chars, lowerHead] at differs
      | cons c cs =>
        cases i with
        | zero => simp [lowerHead]
        | succ i => simp [chars, lowerHead] at differs
  case lowers =>
    intro lowers c first
    rw [lowered_of_not_keepsCase lowers, String.toList_ofList] at first
    cases chars : s.toList with
    | nil => simp [chars, lowerHead] at first
    | cons a as =>
      obtain rfl : a.toLower = c := by simpa [chars, lowerHead] using first
      exact Char.isUpper_toLower_eq_false a
  case again =>
    intro n
    rw [Function.iterate_succ_apply', lowered_iterate]

/-- A message that starts with an acronym and one that does not. -/
theorem lowering_stable_messages :
    lowered "TCL script failed" = "TCL script failed" ∧
      ∀ c ∈ (lowered "No such file").toList.head?, c.isUpper = false :=
  ⟨(lowering_stable "TCL script failed").2.2.2.1 (keepsCase_iff.mpr (by decide +kernel)),
    (lowering_stable "No such file").2.2.2.2.1 (mt keepsCase_iff.mp (by decide +kernel))⟩

end Text

end FpgaProject
