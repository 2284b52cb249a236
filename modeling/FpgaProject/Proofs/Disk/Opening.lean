import FpgaProject.Proofs.Disk.Following

/-!
The directory that a listing opens.

A walk writes a path of its own, and looks that one up at its end. So a listing reads the directory
that is found under the path as the walk writes it, whatever the path is (`list_of_opens`), and where
none is found it gives nothing (`list_of_not_opens`). For that, all that the walk has passed must have
been found as well: `locate_of_further` goes back from where a path leads to where it leads without
its last piece. For a path that a walk has written, the directory is the one that is found under the
path itself (`opens_iff_of_walked`), and without `..` in the path it is enough that there is a
directory at its place (`locate_of_straight`).
-/

namespace FpgaProject.Disk

open Text

variable {d : Disk} {p at_ : Path} {l m : Location} {piece : List Char}

/-! ### Back along a path -/

/-- What is found one piece further is found from a directory. -/
theorem locate_of_further (notDot : at_.text ≠ ".") (given : at_.text ≠ "") (free : '/' ∉ piece)
    (arrived : d.locate (further at_ piece) = .ok m) :
    ∃ l, d.locate at_ = .ok l ∧ d.entryAt? l = some .directory ∧
      d.walk l (counted [piece]) = .ok m := by
  have text := textFault?_of_locate arrived
  have written := chars_further notDot given free
  have text' : textFault? at_ = none :=
    textFault?_of_sublist (written ▸ List.sublist_append_left _ _) given text
  have next : further at_ piece = at_.child (String.ofList piece) := stepTo_of_ne notDot _
  have start : d.origin (further at_ piece) = d.origin at_ := by
    rw [origin, origin, Path.isAbsolute_of_append written given]
  rw [locate_eq text, start] at arrived
  -- An empty piece only puts a slash to the end, but a slash asks for a directory as a name does.
  by_cases empty : piece = []
  · subst empty
    have slash : (further at_ []).endsInSlash = true := by
      rw [next, Path.child, Path.endsInSlash_join given rfl]
      rfl
    have pieces : (further at_ []).pieces = at_.pieces := by
      rw [next]
      exact Path.pieces_child_empty at_
    rw [slash, pieces, if_pos rfl, walk_append_eq_ok_iff] at arrived
    obtain ⟨l, walked, last⟩ := arrived
    obtain ⟨there, -, rest⟩ := walk_cons_eq_ok_iff.mp last
    exact ⟨l, locate_of_walk_pieces text' walked there, there, by simpa [counted] using rest⟩
  · have legal : Path.IsName (String.ofList piece) := ⟨by simpa using empty, by simpa using free⟩
    rw [next, Path.endsInSlash_child legal, Path.pieces_child legal, if_neg (by decide),
      List.append_nil, walk_append_eq_ok_iff] at arrived
    obtain ⟨l, walked, last⟩ := arrived
    have there := (walk_cons_eq_ok_iff.mp last).1
    exact ⟨l, locate_of_walk_pieces text' walked there, there, by simpa [counted, empty] using last⟩

/-- What is found at the end of a walk is found from a start that is there. -/
theorem locate_of_foldl_further {pieces : List (List Char)} (notDot : at_.text ≠ ".")
    (given : at_.text ≠ "") (free : ∀ piece ∈ pieces, '/' ∉ piece)
    (arrived : d.locate (pieces.foldl further at_) = .ok m) : ∃ l, d.locate at_ = .ok l := by
  induction pieces generalizing at_ with
  | nil => exact ⟨m, arrived⟩
  | cons piece pieces ih =>
    obtain ⟨freePiece, others⟩ := List.forall_mem_cons.mp free
    obtain ⟨nextNotDot, nextGiven⟩ := text_further_ne notDot given freePiece
    obtain ⟨k, next⟩ := ih nextNotDot nextGiven others arrived
    obtain ⟨l, found, -⟩ := locate_of_further notDot given freePiece next
    exact ⟨l, found⟩

/-- A walk goes all the way if the path that it writes leads somewhere. -/
theorem follow?_of_locate {pieces : List (List Char)} (notDot : at_.text ≠ ".")
    (given : at_.text ≠ "") (free : ∀ piece ∈ pieces, '/' ∉ piece)
    (arrived : d.locate (pieces.foldl further at_) = .ok m) :
    d.follow? at_ pieces = some (pieces.foldl further at_) := by
  induction pieces generalizing at_ with
  | nil => rfl
  | cons piece pieces ih =>
    obtain ⟨freePiece, others⟩ := List.forall_mem_cons.mp free
    obtain ⟨nextNotDot, nextGiven⟩ := text_further_ne notDot given freePiece
    obtain ⟨k, next⟩ := locate_of_foldl_further nextNotDot nextGiven others arrived
    obtain ⟨l, found, there, walked⟩ := locate_of_further notDot given freePiece next
    obtain ⟨taken, -⟩ := advance?_eq found there freePiece (fun _ => notDot)
      (textFault?_of_locate next) walked
    rw [follow?, taken]
    exact ih nextNotDot nextGiven others arrived

/-! ### What a listing reads -/

/-- A listing of the path reads the directory at a location: it stands there, it is found under the
path that the walk writes, and the walk gets on from the start of the path. -/
structure Opens (d : Disk) (p : Path) (l : Location) : Prop where
  goesOn : p.text = "" ∨ startsBlank p = false
  found : d.locate (respelled p) = .ok l
  there : d.entryAt? l = some .directory

theorem Opens.unique (first : d.Opens p l) (second : d.Opens p m) : l = m :=
  Except.ok.inj (first.found.symm.trans second.found)

/-- From `.`, a walk gets on if the first piece of the path leads on. -/
theorem follow?_dot_of_locate {pieces : List (List Char)} (cwd : d.entryAt? d.cwd = some .directory)
    (present : piece ≠ []) (notDot : piece ≠ ['.']) (free : ∀ q ∈ piece :: pieces, '/' ∉ q)
    (arrived : d.locate ((piece :: pieces).foldl further ⟨"."⟩) = .ok m) :
    d.follow? ⟨"."⟩ (piece :: pieces) = some ((piece :: pieces).foldl further ⟨"."⟩) := by
  obtain ⟨freePiece, others⟩ := List.forall_mem_cons.mp free
  have written := chars_further_dot piece
  have nextNotDot : (further ⟨"."⟩ piece).text ≠ "." := fun dot =>
    notDot (by rw [← written, Path.chars, dot]; rfl)
  have nextGiven : (further ⟨"."⟩ piece).text ≠ "" := fun empty =>
    present (by rw [← written, Path.chars, empty]; rfl)
  obtain ⟨k, next⟩ := locate_of_foldl_further nextNotDot nextGiven others arrived
  have legal : Path.IsName (String.ofList piece) := ⟨by simpa using present, by simpa using freePiece⟩
  have walked := (locate_stepTo_eq_ok_iff (locate_dot cwd) legal (textFault?_of_locate next)).mp next
  obtain ⟨taken, -⟩ := advance?_eq (locate_dot cwd) cwd freePiece (fun empty => absurd empty present)
    (textFault?_of_locate next) (by simpa [counted, present] using walked)
  rw [follow?, taken]
  exact follow?_of_locate nextNotDot nextGiven others arrived

theorem Opens.follow?_eq (cwd : d.entryAt? d.cwd = some .directory) (opens : d.Opens p l) :
    d.follow? (route p).1 (route p).2 = some (respelled p) := by
  have arrived := opens.found
  have free := free_route p
  unfold respelled at arrived ⊢
  by_cases absolute : p.isAbsolute = true
  · have start : (route p).1 = ⟨"/"⟩ := by simp [route, absolute]
    rw [start] at arrived ⊢
    exact follow?_of_locate (by decide) (by decide) free arrived
  · by_cases empty : p.text = ""
    · have start : route p = (⟨"/"⟩, []) := by simp [route, absolute, empty]
      rw [start]
      rfl
    · obtain ⟨dots, each, split⟩ := splitAt_eq_undotted p
      have start : route p = (⟨"."⟩, dots ++ undotted p) := by simp [route, absolute, empty, split]
      have here : d.isDirectory ⟨"."⟩ = true := by simp [isDirectory, find?, locate_dot cwd, cwd]
      rw [start] at arrived free ⊢
      dsimp only at arrived free ⊢
      rw [foldl_further_dots each] at arrived
      rw [follow?_dots each here, foldl_further_dots each]
      cases left : undotted p with
      | nil => rfl
      | cons piece more =>
        have present : piece ≠ [] := by
          rintro rfl
          have blank := opens.goesOn.resolve_left empty
          simp [startsBlank, absolute, left] at blank
        rw [left] at arrived free
        exact follow?_dot_of_locate cwd present (undotted_ne_dot left)
          (fun q member => free q (List.mem_append_right _ member)) arrived

/-- A listing gives the names in the directory that it reads, behind the path that the walk writes. -/
theorem list_of_opens (cwd : d.entryAt? d.cwd = some .directory) (opens : d.Opens p l)
    (wanted : String → Bool) :
    d.list p wanted = ((d.names l).filter wanted).map (stepTo (respelled p)) := by
  rw [list_eq_match, opens.follow?_eq cwd]
  simp only [opens.found, opens.there, if_true]

/-- Where there is no directory to be read, a listing gives nothing. -/
theorem list_of_not_opens (none_ : ∀ l, ¬ d.Opens p l) (wanted : String → Bool) :
    d.list p wanted = [] := by
  by_cases goesOn : p.text = "" ∨ startsBlank p = false
  · rcases d.list_cases_respelled p wanted with nothing | ⟨-, l, found, there, -⟩
    · exact nothing
    · exact absurd ⟨goesOn, found, there⟩ (none_ l)
  · obtain ⟨given, blank⟩ := not_or.mp goesOn
    exact list_of_startsBlank given (by simpa using blank) d wanted

/-- Under a path that a walk has written, a listing reads the directory that is found under it. -/
theorem opens_iff_of_walked (walked : p.Walked) :
    d.Opens p l ↔ d.locate p = .ok l ∧ d.entryAt? l = some .directory := by
  constructor
  · rintro ⟨-, found, there⟩
    rw [walked.respelled_eq] at found
    exact ⟨found, there⟩
  · rintro ⟨found, there⟩
    exact ⟨.inr walked.startsBlank_eq, by rwa [walked.respelled_eq], there⟩

/-- Without `..` in a path, a directory at its place is found under it. -/
theorem locate_of_straight (sound : d.Sound) (text : textFault? p = none) (straight : ".." ∉ p.pieces)
    (there : d.entryAt? (d.place p) = some .directory) : d.locate p = .ok (d.place p) := by
  have seen : d.pathExists p = true := by
    by_contra missed
    obtain ⟨-, refused | ⟨before, name, rest, split, -, up, -⟩⟩ :=
      (overlooks_iff sound p).mp ⟨by simpa using missed, there⟩
    · exact refused text
    · exact straight (by rw [split]; simp [up])
  cases found : d.locate p with
  | error f => simp [pathExists, find?, found] at seen
  | ok l => rw [locate_eq_ok found]

end FpgaProject.Disk
