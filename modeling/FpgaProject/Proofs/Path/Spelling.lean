import FpgaProject.Proofs.Path.Pieces

/-!
Spellings of a path.

The absolute form brings together the spellings of a path: relative or not, with `.`, with slashes
repeated or at the end. Going to an entry below a path and taking the absolute form commute
(`absolute?_child`), so it does not matter which of the two comes first. That is not a matter of
course, as the absolute form keeps a slash at the end and two slashes at the start, and the entry
below comes right behind them.
-/

namespace FpgaProject.Path

variable {p cwd : Path} {name : String}

/-- A slash at the end changes nothing for an entry below. -/
theorem child_child_empty (given : p.text ≠ "") (relative : (⟨name⟩ : Path).isAbsolute = false) :
    (p.child "").child name = p.child name := by
  have empty : (⟨""⟩ : Path).isAbsolute = false := rfl
  have slash : (⟨p.text ++ "/"⟩ : Path).endsInSlash = true := by simp [endsInSlash, chars]
  unfold child join
  by_cases last : p.endsInSlash = true
  · simp [relative, empty, given, last]
  · simp [relative, empty, given, last, slash]

theorem keptPieces_child (legal : IsName name) (notDot : name ≠ ".") (p : Path) :
    (p.child name).keptPieces = p.keptPieces ++ [name] := by
  simp [keptPieces, pieces_child legal, notDot]

/-- An absolute form starts alike for a path and for an entry below it. -/
theorem start_child (legal : IsName name) (p cwd : Path) :
    (p.child name).start cwd = p.start cwd := by
  have relative := isAbsolute_name legal
  by_cases given : p.text = ""
  · have alone : p.child name = ⟨name⟩ := by simp [child, join, given]
    have nowhere : p.isAbsolute = false := by simp [isAbsolute, chars, given]
    simp [alone, start, relative, nowhere]
  · exact start_join given relative cwd

/-- The absolute form of an entry below a path is that entry below the absolute form. -/
theorem absolute?_child (absolute : cwd.isAbsolute = true) (given : p.text ≠ "")
    (legal : IsName name) (notDot : name ≠ ".") :
    (p.child name).absolute? cwd = (p.absolute? cwd).map (·.child name) := by
  have base : (p.keptPieces.foldl child (p.start cwd)).text ≠ "" :=
    text_ne_of_isAbsolute (isAbsolute_foldl_child (isAbsolute_start absolute p) _)
  unfold absolute?
  rw [if_neg (by simpa using text_child_ne legal p), if_neg (by simpa using given),
    start_child legal, keptPieces_child legal notDot, endsInSlash_child legal, List.foldl_append]
  by_cases last : p.endsInSlash = true
  · simp [last, child_child_empty base (isAbsolute_name legal)]
  · simp [last]

/-- A path of two slashes keeps both, and the entry comes right behind them. -/
example : (⟨"//"⟩ : Path).absolute? ⟨"/work"⟩ = some ⟨"//"⟩ ∧
    ((⟨"//"⟩ : Path).child "p.xpr").absolute? ⟨"/work"⟩ = some ⟨"//p.xpr"⟩ := by
  decide +kernel

/-- What is no slash and no dot stays in an absolute form. -/
theorem mem_chars_of_absolute? {q : Path} {c : Char} (hq : p.absolute? cwd = some q)
    (hc : c ∈ p.chars) (notSlash : c ≠ '/') (notDot : c ≠ '.') : c ∈ q.chars := by
  rw [← Text.joinWith_splitAt '/' p.chars] at hc
  rcases Text.mem_joinWith hc with slash | ⟨piece, hpiece, hc⟩
  · exact absurd slash notSlash
  · have present : piece ≠ [] := List.ne_nil_of_mem hc
    have member : String.ofList piece ∈ p.pieces :=
      List.mem_map_of_mem (List.mem_filter.mpr ⟨hpiece, by simpa using present⟩)
    have kept : String.ofList piece ∈ p.keptPieces := by
      refine List.mem_filter.mpr ⟨member, ?_⟩
      rw [decide_eq_true_eq]
      intro dot
      have chars : piece = ['.'] := by simpa using congrArg String.toList dot
      exact notDot (by simpa [chars] using hc)
    have inForm : String.ofList piece ∈ q.pieces := by
      rw [pieces_absolute? hq]
      exact List.mem_append_right _ kept
    exact mem_chars_of_mem_pieces inForm (by simpa using hc)

end FpgaProject.Path
