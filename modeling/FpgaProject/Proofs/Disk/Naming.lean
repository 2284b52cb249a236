import FpgaProject.Proofs.Disk.Spelling
import FpgaProject.Proofs.Path.Tidy

/-!
The paths of files.

A path under which a file is found ends in the name of the file (`exists_child_of_file`): a slash, a
`.` or a `..` at its end would ask for a directory. So the file is found under the absolute form as
well, unless the text of that is refused (`locate_child_of_absolute?`).
-/

namespace FpgaProject.Disk

variable {d : Disk}

/-! ### The path of the working directory -/

/-- The path of an entry is the path to it from the directory in which it stands. -/
theorem pathOf_concat {l : Location} {name : String} (legal : ∀ n ∈ l ++ [name], Path.IsName n) :
    pathOf (l ++ [name]) = (pathOf l).child name := by
  apply Path.chars_injective
  rw [Path.chars_child (legal name (by simp)), chars_pathOf, List.map_append, List.map_singleton,
    Text.joinWith_concat]
  cases l using List.reverseRecOn with
  | nil => rfl
  | append_singleton l last =>
    have noSlash : (pathOf (l ++ [last])).endsInSlash = false := by
      obtain ⟨present, free⟩ := legal last (by simp)
      refine Path.endsInSlash_of_suffix ?_ (Path.toList_ne_nil ⟨present, free⟩) free
      rw [chars_pathOf, List.map_append, List.map_singleton, Text.joinWith_concat]
      exact (List.suffix_append _ _).trans (List.suffix_cons _ _)
    have given : (pathOf (l ++ [last])).text.isEmpty = false := by
      simp [pathOf]
    rw [noSlash, given, chars_pathOf, ← Text.joinWith_append_singleton (by simp)]
    rfl

/-- The path of a location is tidy, and it is its own bare form. -/
theorem isTidy_pathOf {l : Location} (legal : ∀ name ∈ l, Path.IsName name ∧ name ≠ ".") :
    (pathOf l).IsTidy ∧ (pathOf l).bare = pathOf l := by
  induction l using List.reverseRecOn with
  | nil => exact ⟨.root, Path.bare_root⟩
  | append_singleton l name ih =>
    obtain ⟨isName, notDot⟩ := legal name (by simp)
    have above := ih fun n hn => legal n (List.mem_append_left _ hn)
    rw [pathOf_concat fun n hn => (legal n hn).1]
    exact ⟨.child above.1 isName notDot, Path.bare_child isName notDot _⟩

theorem isTidy_cwdPath (sound : d.Sound) : d.cwdPath.IsTidy ∧ d.cwdPath.bare = d.cwdPath := by
  apply isTidy_pathOf
  intro name member
  obtain ⟨legal, named, -⟩ := sound.names_of_entry sound.cwdDirectory name member
  exact ⟨legal, named.1⟩

/-! ### The path of a file -/

/-- A walk that takes one more piece comes from a directory. -/
theorem exists_of_walk_concat {l m : Location} {pieces : List String} {piece : String}
    (walked : d.walk l (pieces ++ [piece]) = .ok m) :
    ∃ above, d.entryAt? above = some .directory ∧ step above piece = m := by
  obtain ⟨above, -, last⟩ := walk_append_eq_ok_iff.mp walked
  obtain ⟨directory, -, arrived⟩ := walk_cons_eq_ok_iff.mp last
  exact ⟨above, directory, by simpa [walk] using arrived⟩

/-- A path under which a file is found is the path to an entry, by a name. -/
theorem exists_child_of_file (sound : d.Sound) {p : Path} {l : Location} (found : d.locate p = .ok l)
    (file : d.entryAt? l ≠ some .directory) :
    ∃ (above : Path) (name : String), Path.IsName name ∧ Named name ∧ p = above.child name := by
  have text := textFault?_of_locate found
  rw [locate_eq text] at found
  have noSlash : p.endsInSlash = false := by
    cases slash : p.endsInSlash with
    | false => rfl
    | true =>
      rw [slash, if_pos rfl] at found
      obtain ⟨m, directory, here⟩ := exists_of_walk_concat found
      rw [step_dot] at here
      exact absurd (here ▸ directory) file
  obtain ⟨above, name, legal, rfl⟩ :=
    Path.exists_child (textFault?_eq_none_iff.mp text).2.1 noSlash
  rw [noSlash, Path.pieces_child legal] at found
  obtain ⟨m, directory, here⟩ := exists_of_walk_concat (by simpa using found)
  refine ⟨above, name, legal, ⟨?_, ?_⟩, rfl⟩
  · rintro rfl
    rw [step_dot] at here
    exact file (here ▸ directory)
  · rintro rfl
    rw [step_up] at here
    exact file (here ▸ sound.directory_dropLast directory)

/-- What a path finds by a name is found under its absolute form. -/
theorem locate_child_of_absolute? (sound : d.Sound) {p q : Path} {name : String}
    (legal : Path.IsName name) (named : Named name)
    (hq : (p.child name).absolute? d.cwdPath = some q) (text : textFault? (p.child name) = none)
    (text' : textFault? q = none) : d.locate q = d.locate (p.child name) := by
  have noSlash : q.endsInSlash = false := by
    rw [Path.absolute?_child_eq_reached legal named.1] at hq
    obtain rfl := Option.some.inj hq
    exact Path.endsInSlash_child legal _
  have kept := Path.keptPieces_child legal named.1 p
  have walked := walk_pieces_absolute? sound hq []
  rw [List.append_nil, List.append_nil, kept, Path.keptPieces, walk_filter_append,
    ← Path.pieces_child legal] at walked
  rw [locate_eq text, locate_eq text', noSlash, Path.endsInSlash_child legal,
    origin_of_absolute? hq]
  simpa using walked

end FpgaProject.Disk
