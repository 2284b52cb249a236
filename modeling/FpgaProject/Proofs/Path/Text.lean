import FpgaProject.Path.Absolute
import FpgaProject.Proofs.Text.Pieces

/-!
The characters of joined, absolute and written paths.

A script holds paths as text, so what can go wrong in it depends on the characters of a path. A
joined path has no characters but those of its parts and a slash (`mem_chars_join`), an absolute
form none but those of the path, of the working directory if the path is relative, and a slash
(`mem_chars_absolute?`), and it starts with a slash (`isAbsolute_absolute?`).
-/

namespace FpgaProject.Path

/-! ### Joining -/

theorem mem_chars_join {c : Char} {p q : Path} (h : c ∈ (p.join q).chars) :
    c ∈ p.chars ∨ c ∈ q.chars ∨ c = '/' := by
  unfold join at h
  split at h
  · exact .inr (.inl h)
  · split at h
    all_goals simp only [chars, String.toList_append, List.mem_append] at h
    · rcases h with h | h
      · exact .inl h
      · exact .inr (.inl h)
    · rcases h with (h | h) | h
      · exact .inl h
      · exact .inr (.inr (by simpa using h))
      · exact .inr (.inl h)

theorem mem_chars_child {c : Char} {p : Path} {name : String} (h : c ∈ (p.child name).chars) :
    c ∈ p.chars ∨ c ∈ name.toList ∨ c = '/' :=
  mem_chars_join h

theorem isAbsolute_join {p : Path} (h : p.isAbsolute = true) (q : Path) :
    (p.join q).isAbsolute = true := by
  unfold join
  split
  · rename_i first
    rcases Bool.or_eq_true_iff.mp first with absolute | empty
    · exact absolute
    · have : p.text = "" := String.isEmpty_iff.mp empty
      simp [isAbsolute, chars, this] at h
  · split
    all_goals
      simp only [isAbsolute, chars, String.toList_append, List.head?_append, beq_iff_eq] at h ⊢
      rw [h]
      rfl

theorem isAbsolute_foldl_child {p : Path} (h : p.isAbsolute = true) (names : List String) :
    (names.foldl child p).isAbsolute = true := by
  induction names generalizing p with
  | nil => exact h
  | cons name names ih => exact ih (isAbsolute_join h _)

theorem mem_chars_foldl_child {c : Char} {p : Path} {names : List String}
    (h : c ∈ (names.foldl child p).chars) :
    c ∈ p.chars ∨ (∃ name ∈ names, c ∈ name.toList) ∨ c = '/' := by
  induction names generalizing p with
  | nil => exact .inl h
  | cons name names ih =>
    rcases ih h with h | ⟨n, hn, hc⟩ | h
    · rcases mem_chars_child h with h | h | h
      · exact .inl h
      · exact .inr (.inl ⟨name, List.mem_cons_self, h⟩)
      · exact .inr (.inr h)
    · exact .inr (.inl ⟨n, List.mem_cons_of_mem _ hn, hc⟩)
    · exact .inr (.inr h)

/-! ### Absolute forms -/

theorem mem_chars_of_mem_pieces {c : Char} {p : Path} {name : String} (h : name ∈ p.pieces)
    (hc : c ∈ name.toList) : c ∈ p.chars := by
  obtain ⟨piece, hp, rfl⟩ := List.mem_map.mp h
  rw [String.toList_ofList] at hc
  exact Text.mem_of_mem_splitAt (List.mem_filter.mp hp).1 hc

theorem mem_chars_start {c : Char} {p cwd : Path} (h : c ∈ (p.start cwd).chars) :
    c = '/' ∨ (p.isAbsolute = false ∧ c ∈ cwd.chars) := by
  unfold start at h
  split at h
  · left
    split at h <;> simpa [chars] using h
  · rename_i relative
    exact .inr ⟨by simpa using relative, h⟩

theorem text_ne_of_isAbsolute {p : Path} (h : p.isAbsolute = true) : p.text ≠ "" := by
  intro empty
  simp [isAbsolute, chars, empty] at h

/-- Only a path that is not empty has an absolute form. -/
theorem text_ne_of_absolute? {p cwd q : Path} (hq : p.absolute? cwd = some q) : p.text ≠ "" := by
  intro empty
  rw [absolute?_eq_none_iff.mpr empty] at hq
  cases hq

/-- A path that is not empty has an absolute form. -/
theorem exists_absolute? {p : Path} (h : p.text ≠ "") (cwd : Path) :
    ∃ q, p.absolute? cwd = some q := by
  cases hq : p.absolute? cwd with
  | none => exact absurd (absolute?_eq_none_iff.mp hq) h
  | some q => exact ⟨q, rfl⟩

/-- The absolute form has no characters of its own but slashes. -/
theorem mem_chars_absolute? {c : Char} {p cwd q : Path} (hq : p.absolute? cwd = some q)
    (hc : c ∈ q.chars) : c = '/' ∨ c ∈ p.chars ∨ (p.isAbsolute = false ∧ c ∈ cwd.chars) := by
  have base : ∀ {x : Char}, x ∈ (p.keptPieces.foldl child (p.start cwd)).chars →
      x = '/' ∨ x ∈ p.chars ∨ (p.isAbsolute = false ∧ x ∈ cwd.chars) := by
    intro x hx
    rcases mem_chars_foldl_child hx with h | ⟨name, hn, h⟩ | h
    · rcases mem_chars_start h with h | h
      · exact .inl h
      · exact .inr (.inr h)
    · exact .inr (.inl (mem_chars_of_mem_pieces (List.mem_filter.mp hn).1 h))
    · exact .inl h
  unfold absolute? at hq
  split at hq
  · cases hq
  · obtain rfl := Option.some.inj hq
    split at hc
    · rcases mem_chars_child hc with h | h | h
      · exact base h
      · simp at h
      · exact .inl h
    · exact base hc

/-- From an absolute working directory, the start of an absolute form is absolute. -/
theorem isAbsolute_start {cwd : Path} (hcwd : cwd.isAbsolute = true) (p : Path) :
    (p.start cwd).isAbsolute = true := by
  unfold start
  split
  · split <;> rfl
  · exact hcwd

/-- From an absolute working directory, absolute forms are absolute. -/
theorem isAbsolute_absolute? {p cwd q : Path} (hcwd : cwd.isAbsolute = true)
    (hq : p.absolute? cwd = some q) : q.isAbsolute = true := by
  have start := isAbsolute_start hcwd p
  unfold absolute? at hq
  split at hq
  · cases hq
  · obtain rfl := Option.some.inj hq
    split
    · exact isAbsolute_join (isAbsolute_foldl_child start _) _
    · exact isAbsolute_foldl_child start _

/-! ### Paths in scripts -/

theorem toList_tclText (p : Path) :
    p.tclText.toList = p.chars.map fun c => if c = '\\' then '/' else c := by
  simp [tclText]

/-- Without a backslash a path is written as it is. -/
theorem tclText_eq_text {p : Path} (free : '\\' ∉ p.chars) : p.tclText = p.text := by
  refine String.toList_injective ?_
  rw [toList_tclText]
  refine (List.map_congr_left fun c member => if_neg ?_).trans (List.map_id _)
  rintro rfl
  exact free member

/-- No line feed stands in a path, nor in the working directory where the path is relative. -/
def OneLine (p cwd : Path) : Prop :=
  '\n' ∉ p.chars ∧ (p.isAbsolute = false → '\n' ∉ cwd.chars)

instance (p cwd : Path) : Decidable (p.OneLine cwd) := inferInstanceAs (Decidable (_ ∧ _))

/-- Writing a path adds no character but a slash. -/
theorem mem_tclText {c : Char} {p : Path} (h : c ∈ p.tclText.toList) : c = '/' ∨ c ∈ p.chars := by
  rw [toList_tclText] at h
  obtain ⟨x, hx, rfl⟩ := List.mem_map.mp h
  split
  · exact .inl rfl
  · exact .inr hx

end FpgaProject.Path
