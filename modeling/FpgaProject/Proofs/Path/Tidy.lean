import FpgaProject.Proofs.Path.Spelling
import FpgaProject.Proofs.Path.Steps

/-!
What a path comes to from a directory.

The absolute form of a path depends on the working directory, but a path can be looked at from any
directory: `Path.tidied` is its absolute form from there. A path below another one is looked at from
where the other one leads (`absolute?_resolve`). What a path leads to is tidy if the directory is
(`isTidy_reached`); from anywhere a tidy path leads to itself. Taking the path above an entry and
going there commute (`reached_bare`), although two slashes at the start may be all that is left.
-/

namespace FpgaProject.Path

variable {p q dir : Path} {name : String}

/-! ### Pieces behind a directory -/

/-- The path that comes of a path from a directory: its pieces, one after another, behind the
directory, or behind the root if the path is absolute. A `.` adds nothing, nor do more slashes. -/
def reached (p dir : Path) : Path :=
  p.keptPieces.foldl child (p.start dir)

/-- The absolute form of a path from a directory: a slash at its end is kept, and the empty path is
the directory with a slash. -/
def tidied (p dir : Path) : Path :=
  if p.text.isEmpty || p.endsInSlash then (p.reached dir).child "" else p.reached dir

theorem absolute?_eq_tidied (given : p.text ≠ "") (dir : Path) :
    p.absolute? dir = some (p.tidied dir) := by
  simp [absolute?, tidied, reached, given]

theorem reached_child (legal : IsName name) (notDot : name ≠ ".") (p dir : Path) :
    (p.child name).reached dir = (p.reached dir).child name := by
  rw [reached, keptPieces_child legal notDot, start_child legal, List.foldl_append]
  rfl

theorem absolute?_child_eq_reached (legal : IsName name) (notDot : name ≠ ".") (p dir : Path) :
    (p.child name).absolute? dir = some ((p.reached dir).child name) := by
  rw [absolute?_eq_tidied (text_child_ne legal p), tidied, endsInSlash_child legal,
    reached_child legal notDot]
  simp [text_child_ne legal p]

theorem reached_dot (dir : Path) : (⟨"."⟩ : Path).reached dir = dir := by
  have idle : (⟨"."⟩ : Path).keptPieces = [] := by decide +kernel
  rw [reached, idle]
  rfl

theorem child_empty_of_endsInSlash (given : p.text ≠ "") (slash : p.endsInSlash = true) :
    p.child "" = p := by
  simp [child, join, given, slash, isAbsolute, chars]

/-- A relative path below another one is reached from there. -/
theorem reached_join (given : p.text ≠ "") (relative : q.isAbsolute = false) (dir : Path) :
    (p.join q).reached dir = q.reached (p.reached dir) := by
  have kept : (p.join q).keptPieces = p.keptPieces ++ q.keptPieces := by
    simp [keptPieces, pieces_join relative]
  have here : q.start (p.reached dir) = p.reached dir := by simp [start, relative]
  rw [reached, kept, start_join given relative, List.foldl_append, reached, here]
  rfl

/-- From where an absolute path is looked at makes no difference. -/
theorem tidied_of_isAbsolute (absolute : p.isAbsolute = true) (dir dir' : Path) :
    p.tidied dir = p.tidied dir' := by
  simp [tidied, reached, start, absolute]

/-- A path that is taken to start at another one is looked at from where that one leads. -/
theorem absolute?_resolve {root : Path} (given : root.text ≠ "") (p dir : Path) :
    (root.resolve p).absolute? dir = some (p.tidied (root.reached dir)) := by
  unfold resolve
  split
  · rename_i absolute
    rw [absolute?_eq_tidied (text_ne_of_isAbsolute absolute), tidied_of_isAbsolute absolute]
  · rename_i relative
    have relative : p.isAbsolute = false := by simpa using relative
    have given' : (root.join p).text ≠ "" := by
      intro empty
      have none : (root.join p).chars = [] := by simp [chars, empty]
      rw [chars_join given relative, List.append_eq_nil_iff] at none
      exact given (String.toList_eq_nil_iff.mp none.1)
    rw [absolute?_eq_tidied given', tidied, endsInSlash_join given relative,
      reached_join given relative]
    simp [tidied, given']

/-! ### Tidy paths -/

theorem isName_of_mem_keptPieces (kept : name ∈ p.keptPieces) : IsName name ∧ name ≠ "." := by
  obtain ⟨member, notDot⟩ := List.mem_filter.mp kept
  exact ⟨isName_of_mem_pieces member, by simpa using notDot⟩

/-- An absolute path in which names follow one another, each behind one slash. At its start two
slashes may stand. -/
inductive IsTidy : Path → Prop where
  | root : IsTidy ⟨"/"⟩
  | twice : IsTidy ⟨"//"⟩
  | child {p : Path} {name : String} : IsTidy p → IsName name → name ≠ "." → IsTidy (p.child name)

theorem IsTidy.foldl_child {names : List String} (tidy : p.IsTidy)
    (legal : ∀ name ∈ names, IsName name ∧ name ≠ ".") : (names.foldl Path.child p).IsTidy := by
  induction names generalizing p with
  | nil => exact tidy
  | cons name names ih =>
    obtain ⟨first, rest⟩ := List.forall_mem_cons.mp legal
    exact ih (.child tidy first.1 first.2) rest

theorem isTidy_start (tidy : dir.IsTidy) (p : Path) : (p.start dir).IsTidy := by
  unfold start
  split
  · split
    · exact .root
    · exact .twice
    · exact .root
  · exact tidy

theorem isTidy_reached (tidy : dir.IsTidy) (p : Path) : (p.reached dir).IsTidy := by
  apply (isTidy_start tidy p).foldl_child
  intro name kept
  exact isName_of_mem_keptPieces kept

/-- From anywhere, a tidy path leads to itself. -/
theorem IsTidy.reached_eq (tidy : p.IsTidy) (dir : Path) : p.reached dir = p := by
  induction tidy with
  | root => rfl
  | twice => rfl
  | child _ legal notDot ih => rw [reached_child legal notDot, ih]

theorem IsTidy.text_ne (tidy : p.IsTidy) : p.text ≠ "" := by
  cases tidy with
  | root => decide
  | twice => decide
  | child _ legal _ => exact text_child_ne legal _

/-- From anywhere, an absolute form is its own absolute form. -/
theorem absolute?_absolute? (tidy : dir.IsTidy) (hq : p.absolute? dir = some q) (dir' : Path) :
    q.absolute? dir' = some q := by
  rw [absolute?_eq_tidied (text_ne_of_absolute? hq)] at hq
  obtain rfl := Option.some.inj hq
  have known := isTidy_reached tidy p
  have given := known.text_ne
  have still := known.reached_eq dir'
  unfold tidied
  generalize p.reached dir = r at known given still
  split
  · have relative : (⟨""⟩ : Path).isAbsolute = false := rfl
    have slash : (r.child "").endsInSlash = true := endsInSlash_join given relative
    have same : (r.child "").reached dir' = r := (reached_join given relative dir').trans still
    have present : (r.child "").text ≠ "" := fun empty => by
      simp [endsInSlash, chars, empty] at slash
    rw [absolute?_eq_tidied present, tidied, slash, Bool.or_true, if_pos rfl, same]
  · rw [absolute?_eq_tidied given, tidied, still]
    split
    · rename_i slash
      rw [child_empty_of_endsInSlash given (by simpa [given] using slash)]
    · rfl

theorem bare_root : (⟨"/"⟩ : Path).bare = ⟨"/"⟩ := by
  decide +kernel

theorem bare_twice : (⟨"//"⟩ : Path).bare = ⟨"/"⟩ := by
  decide +kernel

theorem IsTidy.bare (tidy : p.IsTidy) : p.bare.IsTidy := by
  cases tidy with
  | root =>
    rw [bare_root]
    exact .root
  | twice =>
    rw [bare_twice]
    exact .root
  | child above legal notDot =>
    rw [bare_child legal notDot]
    exact .child above legal notDot

/-- Taking the bare form and going there from a directory commute. -/
theorem reached_bare (whole : dir.bare = dir) (p : Path) :
    p.bare.reached dir = (p.reached dir).bare := by
  by_cases idle : p.keptPieces = []
  · have here : p.reached dir = p.start dir := by
      rw [reached, idle]
      rfl
    rw [here, bare_of_idle idle]
    split
    · rename_i absolute
      rw [IsTidy.root.reached_eq, start, if_pos absolute]
      split
      · exact bare_root.symm
      · exact bare_twice.symm
      · exact bare_root.symm
    · rename_i relative
      rw [reached_dot, start, if_neg relative, whole]
  · -- The last piece is behind all that the start could add.
    obtain ⟨front, last, kept⟩ := (List.eq_nil_or_concat p.keptPieces).resolve_left idle
    have member : last ∈ p.keptPieces := by simp [kept]
    obtain ⟨legal, notDot⟩ := isName_of_mem_keptPieces member
    have same : p.bare.reached dir = p.reached dir := by
      rw [reached, keptPieces_bare, start_bare idle, reached]
    have below : p.reached dir = (front.foldl child (p.start dir)).child last := by
      simp [reached, kept]
    rw [same, below, bare_child legal notDot]

/-- The absolute form of a bare form is what it leads to; no slash is added. -/
theorem absolute?_bare (p dir : Path) : p.bare.absolute? dir = some (p.bare.reached dir) := by
  have given : p.bare.text.isEmpty = false := by simpa using p.text_bare_ne
  rw [absolute?_eq_tidied p.text_bare_ne, tidied, given, Bool.false_or]
  by_cases idle : p.keptPieces = []
  · rw [bare_of_idle idle]
    split
    · rw [IsTidy.root.reached_eq]
      decide +kernel
    · rfl
  · rw [(bare_of_counts idle).2]
    rfl

end FpgaProject.Path
