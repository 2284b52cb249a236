/-!
Blank characters and words.

A blank is a character with the Unicode property White_Space; a word is a longest run without
blanks. Main statements: a first word holds no blank (`not_isBlank_of_mem_firstWord`), and it is
empty exactly when the text is blank all through (`firstWord_eq_nil_iff`).
-/

namespace FpgaProject.Text

/-- The characters with the property White_Space, twenty-five in all. -/
def isBlank (c : Char) : Bool :=
  let n := c.toNat
  (9 ≤ n && n ≤ 13) || n == 0x20 || n == 0x85 || n == 0xA0 || n == 0x1680 ||
    (0x2000 ≤ n && n ≤ 0x200A) || n == 0x2028 || n == 0x2029 || n == 0x202F || n == 0x205F ||
    n == 0x3000

/-- The first word of a text; nothing if the text has none. -/
def firstWord (s : List Char) : List Char :=
  (s.dropWhile isBlank).takeWhile (fun c => !isBlank c)

theorem not_isBlank_of_mem_firstWord {s : List Char} {c : Char} (h : c ∈ firstWord s) :
    isBlank c = false := by
  have := @List.all_takeWhile _ (fun c => !isBlank c) (s.dropWhile isBlank)
  simpa using List.all_eq_true.1 this c h

/-- A text without a word is blank all through. -/
theorem firstWord_eq_nil_iff {s : List Char} :
    firstWord s = [] ↔ ∀ c ∈ s, isBlank c = true := by
  induction s with
  | nil => simp [firstWord]
  | cons c s ih =>
    by_cases h : isBlank c = true
    · simp [firstWord, h] at ih ⊢
      simpa [firstWord] using ih
    · simp [firstWord, h]

end FpgaProject.Text
