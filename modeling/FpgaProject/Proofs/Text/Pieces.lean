import FpgaProject.Text.Split

/-!
Laws of cutting and joining.

`joinWith_splitAt` says that cutting loses nothing; the laws here say what the pieces are:

* `splitAt_append_cons`: cutting goes through an occurrence of the character, so a text is cut
  piece by piece from the left;
* `splitAt_joinWith`: pieces without the character come back from the joined text, whatever else
  they hold, empty pieces included;
* `splitAt_closed`: so do lines that are each closed by the character, with an empty piece at the end.
-/

namespace FpgaProject.Text

/-! ### Cutting -/

/-- What occurs in a list made of two occurs in the first of them or behind it. -/
theorem occurs_in_append {α : Type} {xs ys before after : List α} {e : α}
    (h : xs ++ ys = before ++ e :: after) :
    (∃ rest, xs = before ++ e :: rest) ∨ ∃ later, before = xs ++ later ∧ ys = later ++ e :: after := by
  rcases List.append_eq_append_iff.mp h with ⟨later, rfl, rest⟩ | ⟨first, rfl, rest⟩
  · exact .inr ⟨later, rfl, rest⟩
  · cases first with
    | nil => exact .inr ⟨[], by simp, by simpa using rest.symm⟩
    | cons x first =>
      obtain ⟨rfl, rfl⟩ := List.cons.inj rest
      exact .inl ⟨first, rfl⟩

/-- A text without the character is one piece. -/
theorem splitAt_of_notMem {c : Char} {s : List Char} (h : c ∉ s) : splitAt c s = [s] := by
  induction s with
  | nil => rfl
  | cons x s ih =>
    have hx : x ≠ c := fun e => h (e ▸ List.mem_cons_self)
    have hs : splitAt c s = [s] := ih fun m => h (List.mem_cons_of_mem _ m)
    simp [splitAt, hx, hs]

/-- Cutting goes through each occurrence of the character. -/
theorem splitAt_append_cons (c : Char) (s t : List Char) :
    splitAt c (s ++ c :: t) = splitAt c s ++ splitAt c t := by
  induction s with
  | nil => simp [splitAt_cons_self]
  | cons x s ih =>
    by_cases hx : x = c
    · subst hx
      rw [List.cons_append, splitAt_cons_self, splitAt_cons_self, ih, List.cons_append]
    · obtain ⟨piece, pieces, h1, h2⟩ := splitAt_cons_of_ne hx s
      obtain ⟨piece', pieces', h1', h2'⟩ := splitAt_cons_of_ne hx (s ++ c :: t)
      rw [ih, h1, List.cons_append] at h1'
      obtain ⟨rfl, rfl⟩ := List.cons.inj h1'
      rw [List.cons_append, h2', h2, List.cons_append]

/-- The characters of a text's pieces are characters of the text. -/
theorem mem_of_mem_splitAt {c x : Char} {s piece : List Char} (hp : piece ∈ splitAt c s)
    (hx : x ∈ piece) : x ∈ s := by
  induction s generalizing piece with
  | nil =>
    simp only [splitAt_nil, List.mem_singleton] at hp
    subst hp
    exact absurd hx List.not_mem_nil
  | cons y s ih =>
    by_cases hy : y = c
    · subst hy
      rw [splitAt_cons_self] at hp
      rcases List.mem_cons.mp hp with rfl | hp
      · exact absurd hx List.not_mem_nil
      · exact List.mem_cons_of_mem _ (ih hp hx)
    · obtain ⟨first, rest, h1, h2⟩ := splitAt_cons_of_ne hy s
      rw [h2] at hp
      rcases List.mem_cons.mp hp with rfl | hp
      · rcases List.mem_cons.mp hx with rfl | hx
        · exact List.mem_cons_self
        · exact List.mem_cons_of_mem _ (ih (h1 ▸ List.mem_cons_self) hx)
      · exact List.mem_cons_of_mem _ (ih (h1 ▸ List.mem_cons_of_mem _ hp) hx)

/-- A text cut in two at the first occurrence of a character. -/
def cutAt (c : Char) (s : List Char) : List Char × List Char :=
  (s.takeWhile (· ≠ c), (s.dropWhile (· ≠ c)).drop 1)

theorem cutAt_append {c : Char} {s : List Char} (free : c ∉ s) (rest : List Char) :
    cutAt c (s ++ c :: rest) = (s, rest) := by
  have passes : ∀ x ∈ s, decide (x ≠ c) = true := by
    intro x hx
    simp only [decide_eq_true_eq]
    rintro rfl
    exact free hx
  simp only [cutAt, List.takeWhile_append_of_pos passes, List.dropWhile_append_of_pos passes]
  simp

/-! ### Joining -/

theorem joinWith_cons {c : Char} {piece : List Char} {pieces : List (List Char)}
    (h : pieces ≠ []) : joinWith c (piece :: pieces) = piece ++ c :: joinWith c pieces := by
  cases pieces with
  | nil => exact absurd rfl h
  | cons => rfl

/-- A joined text with the character behind it is its pieces, each closed by the character. -/
theorem joinWith_append_singleton {c : Char} {pieces : List (List Char)} (ne : pieces ≠ []) :
    joinWith c pieces ++ [c] = pieces.flatMap (· ++ [c]) := by
  induction pieces with
  | nil => exact absurd rfl ne
  | cons piece pieces ih =>
    cases pieces with
    | nil => simp [joinWith]
    | cons next rest =>
      rw [joinWith_cons (by simp), List.flatMap_cons, ← ih (by simp)]
      simp

/-- The first pieces give the first characters of a joined text. -/
theorem prefix_joinWith {c : Char} {first pieces : List (List Char)} (h : first <+: pieces) :
    joinWith c first <+: joinWith c pieces := by
  induction first generalizing pieces with
  | nil => exact List.nil_prefix
  | cons piece first ih =>
    obtain ⟨more, rfl, rest⟩ := List.cons_prefix_iff.mp h
    by_cases alone : first = []
    · subst alone
      by_cases none : more = []
      · simp [none]
      · rw [joinWith_cons none]
        exact List.prefix_append piece (c :: joinWith c more)
    · have ne : more ≠ [] := fun none => alone (by simpa [none] using rest)
      rw [joinWith_cons alone, joinWith_cons ne, List.prefix_append_right_inj,
        List.prefix_cons_inj]
      exact ih rest

/-- A joined text ends in its last piece; the ones before are each closed by the character. -/
theorem joinWith_concat (c : Char) (front : List (List Char)) (piece : List Char) :
    joinWith c (front ++ [piece]) = front.flatMap (· ++ [c]) ++ piece := by
  induction front with
  | nil => rfl
  | cons first front ih =>
    rw [List.cons_append, joinWith_cons (by simp), ih, List.flatMap_cons]
    simp

/-- The last pieces give the last characters of a joined text. -/
theorem suffix_joinWith {c : Char} {last pieces : List (List Char)} (ne : last ≠ [])
    (h : last <:+ pieces) : joinWith c last <:+ joinWith c pieces := by
  obtain ⟨front, rfl⟩ := h
  induction front with
  | nil => exact List.suffix_rfl
  | cons piece front ih =>
    rw [List.cons_append, joinWith_cons (by simp [ne])]
    exact (ih.trans (List.suffix_cons c _)).trans (List.suffix_append piece _)

/-- Pieces without the character come back from the joined text. -/
theorem splitAt_joinWith {c : Char} {pieces : List (List Char)} (ne : pieces ≠ [])
    (free : ∀ piece ∈ pieces, c ∉ piece) : splitAt c (joinWith c pieces) = pieces := by
  induction pieces with
  | nil => exact absurd rfl ne
  | cons piece pieces ih =>
    have head : splitAt c piece = [piece] := splitAt_of_notMem (free piece List.mem_cons_self)
    cases pieces with
    | nil => exact head
    | cons next rest =>
      rw [joinWith_cons (by simp), splitAt_append_cons, head,
        ih (by simp) fun p hp => free p (List.mem_cons_of_mem _ hp)]
      rfl

/-- Lines that are each closed by the character come back, with an empty piece at the end. -/
theorem splitAt_closed {c : Char} {ls : List (List Char)} (free : ∀ l ∈ ls, c ∉ l) :
    splitAt c (ls.flatMap (· ++ [c])) = ls ++ [[]] := by
  induction ls with
  | nil => rfl
  | cons l ls ih =>
    have rest := ih fun m hm => free m (List.mem_cons_of_mem _ hm)
    rw [List.flatMap_cons, List.append_assoc, List.singleton_append, splitAt_append_cons,
      splitAt_of_notMem (free l List.mem_cons_self), rest]
    rfl

/-- The characters of a joined text are those of its pieces and the one between them. -/
theorem mem_joinWith {c x : Char} {pieces : List (List Char)} (h : x ∈ joinWith c pieces) :
    x = c ∨ ∃ piece ∈ pieces, x ∈ piece := by
  induction pieces with
  | nil => simp [joinWith] at h
  | cons piece pieces ih =>
    by_cases ne : pieces = []
    · subst ne
      exact .inr ⟨piece, List.mem_cons_self, h⟩
    · rw [joinWith_cons ne, List.mem_append, List.mem_cons] at h
      rcases h with h | h | h
      · exact .inr ⟨piece, List.mem_cons_self, h⟩
      · exact .inl h
      · rcases ih h with e | ⟨p, hp, hx⟩
        · exact .inl e
        · exact .inr ⟨p, List.mem_cons_of_mem _ hp, hx⟩

/-- Joining texts with a text of one character between them is joining their characters. -/
theorem toList_intercalate_singleton (c : Char) (ss : List String) :
    ((String.singleton c).intercalate ss).toList = joinWith c (ss.map String.toList) := by
  induction ss with
  | nil => simp [joinWith]
  | cons s ss ih =>
    cases ss with
    | nil => simp [joinWith]
    | cons t ss =>
      rw [String.intercalate_cons_cons, List.map_cons, joinWith_cons (by simp), ← ih]
      simp

end FpgaProject.Text
