/-!
Cutting a text at a character and joining the pieces again.

`splitAt c` gives the pieces between the occurrences of `c`, one more than there are occurrences.
Main statements: `joinWith_splitAt` (nothing is lost) and `not_mem_of_mem_splitAt` (no piece holds
the character).
-/

namespace FpgaProject.Text

/-- The pieces of a text between the occurrences of a character. -/
def splitAt (c : Char) : List Char → List (List Char)
  | [] => [[]]
  | x :: s =>
    if x = c then [] :: splitAt c s
    else match splitAt c s with
      | [] => [[x]]
      | piece :: pieces => (x :: piece) :: pieces

def joinWith (c : Char) : List (List Char) → List Char
  | [] => []
  | [piece] => piece
  | piece :: pieces => piece ++ c :: joinWith c pieces

@[simp] theorem splitAt_nil (c : Char) : splitAt c [] = [[]] := rfl

theorem splitAt_ne_nil (c : Char) (s : List Char) : splitAt c s ≠ [] := by
  cases s with
  | nil => simp
  | cons x s =>
    simp only [splitAt]
    split
    · simp
    · split <;> simp

theorem splitAt_cons_self (c : Char) (s : List Char) :
    splitAt c (c :: s) = [] :: splitAt c s := by
  simp [splitAt]

theorem splitAt_cons_of_ne {c x : Char} (h : x ≠ c) (s : List Char) :
    ∃ piece pieces, splitAt c s = piece :: pieces ∧
      splitAt c (x :: s) = (x :: piece) :: pieces := by
  cases hs : splitAt c s with
  | nil => exact absurd hs (splitAt_ne_nil c s)
  | cons piece pieces => exact ⟨piece, pieces, rfl, by simp [splitAt, h, hs]⟩

/-- Joining the pieces gives the text again. -/
theorem joinWith_splitAt (c : Char) (s : List Char) : joinWith c (splitAt c s) = s := by
  induction s with
  | nil => rfl
  | cons x s ih =>
    by_cases h : x = c
    · subst h
      rw [splitAt_cons_self]
      cases hs : splitAt x s with
      | nil => exact absurd hs (splitAt_ne_nil x s)
      | cons piece pieces => rw [← hs, joinWith, ih] <;> simp [hs]
    · obtain ⟨piece, pieces, h1, h2⟩ := splitAt_cons_of_ne h s
      rw [h2]
      rw [h1] at ih
      cases pieces with
      | nil => simpa [joinWith] using ih
      | cons p ps => simpa [joinWith] using ih

/-- No piece holds the character at which the text was cut. -/
theorem not_mem_of_mem_splitAt {c : Char} {s piece : List Char} (h : piece ∈ splitAt c s) :
    c ∉ piece := by
  induction s generalizing piece with
  | nil =>
    simp at h
    simp [h]
  | cons x s ih =>
    by_cases hx : x = c
    · subst hx
      rw [splitAt_cons_self] at h
      rcases List.mem_cons.1 h with rfl | h
      · simp
      · exact ih h
    · obtain ⟨p, ps, h1, h2⟩ := splitAt_cons_of_ne hx s
      rw [h2] at h
      rcases List.mem_cons.1 h with rfl | h
      · have := @ih p (by simp [h1])
        simpa using ⟨fun e => hx e.symm, this⟩
      · exact ih (by simp [h1, h])

end FpgaProject.Text
