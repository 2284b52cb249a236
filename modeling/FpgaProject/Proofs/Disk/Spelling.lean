import FpgaProject.Proofs.Disk.Making
import FpgaProject.Proofs.Path.Spelling

/-!
Looking up the spellings of a path.

What stands below a path is found under each of its spellings, and if it is not found it is missed
for the same reason (`locate_child_eq`): a `.` on the way adds nothing as long as the walk goes on.
At the end of a path it asks for a directory, so a spelling of the path itself is sure to lead where
its absolute form does if a directory is there (`locate_of_absolute?`).
-/

namespace FpgaProject

namespace Disk

variable {d : Disk}

/-! ### Walks without `.` -/

/-- A `.` is passed over if the walk goes on. -/
theorem walk_dot {pieces : List String} (goesOn : pieces ≠ []) (l : Location) :
    d.walk l ("." :: pieces) = d.walk l pieces := by
  obtain ⟨piece, rest, rfl⟩ := List.exists_cons_of_ne_nil goesOn
  cases there : d.entryAt? l with
  | none => simp [walk, there]
  | some e => cases e <;> simp [walk, there]

/-- With a last piece behind it, each `.` can be left out of a walk. -/
theorem walk_filter_append (pieces : List String) (name : String) (l : Location) :
    d.walk l (pieces.filter (· ≠ ".") ++ [name]) = d.walk l (pieces ++ [name]) := by
  induction pieces generalizing l with
  | nil => rfl
  | cons piece pieces ih =>
    by_cases dot : piece = "."
    · subst dot
      rw [List.cons_append, walk_dot (by simp), ← ih]
      rfl
    · rw [List.filter_cons_of_pos (by simpa using dot), List.cons_append, List.cons_append]
      simp only [walk, ih]

/-- A walk to a directory starts from one. -/
theorem directory_of_walk {l m : Location} {pieces : List String} (walked : d.walk l pieces = .ok m)
    (directory : d.entryAt? m = some .directory) : d.entryAt? l = some .directory := by
  cases pieces with
  | nil =>
    obtain rfl := Except.ok.inj walked
    exact directory
  | cons piece pieces => exact (walk_cons_eq_ok_iff.mp walked).1

/-- On the way to a directory each `.` leads on. -/
theorem walk_of_filter {l m : Location} {pieces : List String}
    (walked : d.walk l (pieces.filter (· ≠ ".")) = .ok m)
    (directory : d.entryAt? m = some .directory) : d.walk l pieces = .ok m := by
  induction pieces generalizing l with
  | nil => exact walked
  | cons piece pieces ih =>
    by_cases dot : piece = "."
    · subst dot
      refine walk_cons_eq_ok_iff.mpr
        ⟨directory_of_walk walked directory, fun named => absurd rfl named.1, ?_⟩
      rw [step_dot]
      exact ih walked
    · rw [List.filter_cons_of_pos (by simpa using dot)] at walked
      obtain ⟨start, passed, walked⟩ := walk_cons_eq_ok_iff.mp walked
      exact walk_cons_eq_ok_iff.mpr ⟨start, passed, ih walked⟩

/-- A walk along the names of a directory comes to it. -/
theorem walk_names_append (sound : d.Sound) {l m : Location}
    (there : d.entryAt? (l ++ m) = some .directory) (rest : List String) :
    d.walk l (m ++ rest) = d.walk (l ++ m) rest := by
  induction m generalizing l with
  | nil => simp
  | cons name m ih =>
    have further : d.entryAt? ((l ++ [name]) ++ m) = some .directory := by simpa using there
    obtain ⟨-, ⟨notDot, notUp⟩, short⟩ :=
      sound.names_of_entry there name (by simp)
    have next : d.entryAt? (l ++ [name]) = some .directory := by
      by_cases last : m = []
      · simpa [last] using further
      · exact sound.above further last
    have start : d.entryAt? l = some .directory := sound.inDirectory _ _ _ next
    rw [List.cons_append, walk, start]
    simp only [notDot, notUp, if_false, Nat.not_lt_of_le short, next]
    rw [ih further, List.append_assoc, List.singleton_append]

/-- From the root, the pieces of an absolute form lead where those of the path do, `.` aside. -/
theorem walk_pieces_absolute? (sound : d.Sound) {p q : Path}
    (hq : p.absolute? d.cwdPath = some q) (rest : List String) :
    d.walk [] (q.pieces ++ rest) = d.walk (d.origin p) (p.keptPieces ++ rest) := by
  have cwdPieces : d.cwdPath.pieces = d.cwd :=
    pieces_pathOf fun name hn => (sound.names_of_entry sound.cwdDirectory name hn).1
  rw [Path.pieces_absolute? hq, cwdPieces, List.append_assoc]
  unfold origin
  split
  · rfl
  · exact walk_names_append sound (l := []) sound.cwdDirectory _

theorem origin_of_absolute? {p q : Path} (hq : p.absolute? d.cwdPath = some q) :
    d.origin q = [] := by
  simp [origin, Path.isAbsolute_absolute? d.isAbsolute_cwdPath hq]

/-! ### Spellings -/

/-- An entry below a path is looked up alike under the path and under its absolute form. -/
theorem locate_child_eq (sound : d.Sound) {p q : Path} (hq : p.absolute? d.cwdPath = some q)
    {name : String} (legal : Path.IsName name) (text : textFault? (p.child name) = none)
    (text' : textFault? (q.child name) = none) :
    d.locate (p.child name) = d.locate (q.child name) := by
  have absolute : q.isAbsolute = true := Path.isAbsolute_absolute? d.isAbsolute_cwdPath hq
  have origins : d.origin (p.child name) = d.origin p ∧ d.origin (q.child name) = [] := by
    simp [origin, Path.isAbsolute_child legal, absolute]
  rw [locate_eq text, locate_eq text', Path.endsInSlash_child legal, Path.endsInSlash_child legal,
    Path.pieces_child legal, Path.pieces_child legal, origins.1, origins.2]
  simp only [Bool.false_eq_true, if_false, List.append_nil]
  rw [walk_pieces_absolute? sound hq, Path.keptPieces, walk_filter_append]

theorem place_child {name : String} (legal : Path.IsName name) (p : Path) :
    d.place (p.child name) = step (d.place p) name := by
  simp [place, origin, Path.isAbsolute_child legal, Path.pieces_child legal]

/-- An entry below a path has one place under all spellings. -/
theorem place_child_eq (sound : d.Sound) {p q : Path} (hq : p.absolute? d.cwdPath = some q)
    {name : String} (legal : Path.IsName name) :
    d.place (p.child name) = d.place (q.child name) := by
  rw [place_child legal, place_child legal, place_of_absolute? sound hq]

/-- If the absolute form of a path leads somewhere, the text of the path is in order unless it is too
long. -/
theorem textFault?_eq_none_iff_of_absolute? {p q cwd : Path} (hq : p.absolute? cwd = some q)
    {l : Location} (found : d.locate q = .ok l) :
    textFault? p = none ↔ p.text.utf8ByteSize < pathLimit := by
  have clean : '\x00' ∉ p.chars := fun nul =>
    (textFault?_eq_none_iff.mp (textFault?_of_locate found)).1
      (Path.mem_chars_of_absolute? hq nul (by decide) (by decide))
  simp [textFault?_eq_none_iff, clean, Path.text_ne_of_absolute? hq]

/-- A slash at the end adds nothing to where a path leads. -/
theorem walk_pieces_of_locate {p : Path} {l : Location} (found : d.locate p = .ok l) :
    d.walk (d.origin p) p.pieces = .ok l := by
  rw [locate_eq (textFault?_of_locate found), walk_append_eq_ok_iff] at found
  obtain ⟨m, walked, slash⟩ := found
  have reached := walk_eq_ok slash
  obtain rfl : l = m := by split at reached <;> simpa using reached
  exact walked

/-- Where the pieces of a path lead to a directory, the path does, with a slash at its end or
without. -/
theorem locate_of_walk_pieces {p : Path} {l : Location} (text : textFault? p = none)
    (walked : d.walk (d.origin p) p.pieces = .ok l) (there : d.entryAt? l = some .directory) :
    d.locate p = .ok l := by
  rw [locate_eq text, walk_append_eq_ok_iff]
  refine ⟨l, walked, ?_⟩
  split
  · exact walk_cons_eq_ok_iff.mpr ⟨there, fun named => absurd rfl named.1, by simp [walk]⟩
  · rfl

/-- A directory that an absolute form leads to is found under the path as well, unless the text of
the path is refused. -/
theorem locate_of_absolute? (sound : d.Sound) {p q : Path} (hq : p.absolute? d.cwdPath = some q)
    (text : textFault? p = none) {l : Location} (found : d.locate q = .ok l)
    (directory : d.entryAt? l = some .directory) : d.locate p = .ok l := by
  have walked := walk_pieces_of_locate found
  rw [origin_of_absolute? hq, ← List.append_nil q.pieces, walk_pieces_absolute? sound hq,
    List.append_nil] at walked
  exact locate_of_walk_pieces text (walk_of_filter walked directory) directory

end Disk

end FpgaProject
