import FpgaProject.Proofs.Disk.Place

/-!
What making directories and writing files changes.

`makeDirectories` only adds: every entry stays, and what is new is a directory where nothing was
(`grows_makeDirectories`). If it succeeds, the path names a directory, which stands at the place of
the path (`entryAt?_makeDirectories`). Writing a file in a directory changes that one entry
(`writeText_child`).
-/

namespace FpgaProject

namespace Disk

variable {d d' : Disk}

/-! ### Keeping what is there -/

/-- The disk lost nothing: directories are directories still, and entries are entries. -/
structure Keeps (d d' : Disk) : Prop where
  cwd : d'.cwd = d.cwd
  directories : ∀ l, d.entryAt? l = some .directory → d'.entryAt? l = some .directory
  entries : ∀ l, d.entryAt? l ≠ none → d'.entryAt? l ≠ none

/-- The disk is the same but for directories where nothing was. -/
structure Grows (d d' : Disk) : Prop where
  cwd : d'.cwd = d.cwd
  added : ∀ l, d'.entryAt? l = d.entryAt? l ∨
    (d.entryAt? l = none ∧ d'.entryAt? l = some .directory)

theorem Grows.refl (d : Disk) : d.Grows d :=
  ⟨rfl, fun _ => .inl rfl⟩

theorem Grows.trans {d'' : Disk} (first : d.Grows d') (second : d'.Grows d'') : d.Grows d'' := by
  refine ⟨second.cwd.trans first.cwd, fun l => ?_⟩
  rcases second.added l with same | ⟨absent, made⟩
  · rcases first.added l with same' | ⟨absent', made'⟩
    · exact .inl (same.trans same')
    · exact .inr ⟨absent', same.trans made'⟩
  · rcases first.added l with same' | ⟨absent', -⟩
    · exact .inr ⟨same'.symm.trans absent, made⟩
    · exact .inr ⟨absent', made⟩

/-- A disk that grows keeps each entry as it is. -/
theorem Grows.entryAt?_eq_some {l : Location} {e : Entry} (grows : d.Grows d')
    (there : d.entryAt? l = some e) : d'.entryAt? l = some e := by
  rcases grows.added l with same | ⟨absent, -⟩
  · rw [same, there]
  · simp [there] at absent

theorem Grows.keeps (grows : d.Grows d') : d.Keeps d' := by
  refine ⟨grows.cwd, fun l there => grows.entryAt?_eq_some there, fun l there => ?_⟩
  obtain ⟨e, he⟩ := Option.ne_none_iff_exists'.mp there
  simp [grows.entryAt?_eq_some he]

theorem grows_put_directory {l : Location} (ne : l ≠ []) (absent : d.entryAt? l = none) :
    d.Grows (d.put l .directory) := by
  refine ⟨rfl, fun m => ?_⟩
  rw [entryAt?_put d ne]
  by_cases here : m = l
  · exact .inr ⟨here ▸ absent, if_pos here⟩
  · exact .inl (if_neg here)

/-- Putting a file keeps everything unless a directory was there. -/
theorem keeps_put_file {l : Location} (ne : l ≠ []) (noDirectory : d.entryAt? l ≠ some .directory)
    (contents : Contents) (executable : Bool) : d.Keeps (d.put l (.file contents executable)) := by
  refine ⟨rfl, fun m there => ?_, fun m there => ?_⟩
  · rw [entryAt?_put d ne, if_neg]
    · exact there
    · rintro rfl
      exact noDirectory there
  · rw [entryAt?_put d ne]
    split
    · simp
    · exact there

/-! ### Walks on a disk that lost nothing -/

theorem walk_append_eq_ok_iff {l m : Location} {first second : List String} :
    d.walk l (first ++ second) = .ok m ↔
      ∃ middle, d.walk l first = .ok middle ∧ d.walk middle second = .ok m := by
  induction first generalizing l with
  | nil => simp [walk]
  | cons piece pieces ih =>
    rw [List.cons_append, walk_cons_eq_ok_iff, ih]
    constructor
    · rintro ⟨start, passed, middle, walked, rest⟩
      exact ⟨middle, walk_cons_eq_ok_iff.mpr ⟨start, passed, walked⟩, rest⟩
    · rintro ⟨middle, walked, rest⟩
      obtain ⟨start, passed, walked⟩ := walk_cons_eq_ok_iff.mp walked
      exact ⟨start, passed, middle, walked, rest⟩

/-- A walk goes as before. -/
theorem Keeps.walk_eq_ok (keeps : d.Keeps d') {l m : Location} {pieces : List String}
    (h : d.walk l pieces = .ok m) : d'.walk l pieces = .ok m := by
  induction pieces generalizing l with
  | nil => exact h
  | cons piece pieces ih =>
    obtain ⟨start, passed, walked⟩ := walk_cons_eq_ok_iff.mp h
    refine walk_cons_eq_ok_iff.mpr ⟨keeps.directories l start, fun named => ?_, ih walked⟩
    exact ⟨(passed named).1, keeps.entries _ (passed named).2⟩

theorem Keeps.origin_eq (keeps : d.Keeps d') (p : Path) : d'.origin p = d.origin p := by
  simp [origin, keeps.cwd]

theorem Keeps.place_eq (keeps : d.Keeps d') (p : Path) : d'.place p = d.place p := by
  simp [place, keeps.origin_eq p]

/-- What a path leads to, it leads to still. -/
theorem Keeps.locate_eq_ok (keeps : d.Keeps d') {p : Path} {l : Location}
    (found : d.locate p = .ok l) : d'.locate p = .ok l := by
  have text := textFault?_of_locate found
  rw [locate_eq text] at found ⊢
  rw [keeps.origin_eq]
  exact keeps.walk_eq_ok found

/-! ### New entries -/

/-- What is known of a place for a new entry. -/
theorem locateNew_eq_ok {p : Path} {l : Location} {name : String}
    (h : d.locateNew p = .ok (l, name)) :
    textFault? p = none ∧ p.pieces = p.pieces.dropLast ++ [name] ∧
      d.walk (d.origin p) p.pieces.dropLast = .ok l ∧ d.entryAt? l = some .directory ∧
      Named name ∧ name.utf8ByteSize ≤ nameLimit := by
  unfold locateNew at h
  cases text : textFault? p with
  | some f => simp [text] at h
  | none =>
    cases last : p.pieces.getLast? with
    | none => simp [text, last] at h
    | some final =>
      simp only [text, last, bind, Except.bind] at h
      cases walked : d.walk (d.origin p) p.pieces.dropLast with
      | error f => simp [walked] at h
      | ok above =>
        simp only [walked] at h
        cases there : d.entryAt? above with
        | none => simp [there] at h
        | some e =>
          cases e with
          | file => simp [there] at h
          | directory =>
            simp only [there] at h
            split at h
            · cases h
            · rename_i named
              split at h
              · cases h
              · rename_i short
                obtain ⟨rfl, rfl⟩ := Prod.mk.inj (Except.ok.inj h)
                have pieces : p.pieces = p.pieces.dropLast ++ [final] := by
                  obtain ⟨front, hfront⟩ := List.getLast?_eq_some_iff.mp last
                  rw [hfront, List.dropLast_concat]
                refine ⟨rfl, pieces, rfl, there, ?_, Nat.le_of_not_lt short⟩
                simpa [Named, not_or] using named

/-- What is put in a new place is found there, on a disk that lost nothing by it. -/
theorem locate_of_locateNew {p : Path} {l : Location} {name : String} {e : Entry}
    (new : d.locateNew p = .ok (l, name)) (keeps : d.Keeps d')
    (there : d'.entryAt? (l ++ [name]) = some e)
    (slash : p.endsInSlash = true → e = .directory) : d'.locate p = .ok (l ++ [name]) := by
  obtain ⟨text, pieces, walked, above, named, short⟩ := locateNew_eq_ok new
  have reached : d'.walk (d'.origin p) p.pieces = .ok (l ++ [name]) := by
    rw [pieces, walk_append_eq_ok_iff]
    refine ⟨l, ?_, ?_⟩
    · rw [keeps.origin_eq]
      exact keeps.walk_eq_ok walked
    · refine walk_cons_eq_ok_iff.mpr ⟨keeps.directories l above, fun _ => ⟨short, ?_⟩, ?_⟩
      · simp [there]
      · rw [step_name named, walk]
  rw [locate_eq text]
  split
  · rename_i last
    rw [walk_append_eq_ok_iff]
    refine ⟨_, reached, walk_cons_eq_ok_iff.mpr ⟨?_, fun named => absurd rfl named.1, ?_⟩⟩
    · rw [there, slash last]
    · rw [step_dot, walk]
  · rwa [List.append_nil]

/-! ### Making directories -/

theorem makeDirectory_spec (d : Disk) (p : Path) :
    d.Grows (d.makeDirectory p).1 ∧
      ((d.makeDirectory p).2 = .ok () → (d.makeDirectory p).1.isDirectory p = true) := by
  unfold makeDirectory
  split
  · exact ⟨.refl d, by simp⟩
  · rename_i l name new
    split
    · exact ⟨.refl d, by simp⟩
    · rename_i absent
      have grows := grows_put_directory (l := l ++ [name]) (by simp) absent
      have there : (d.put (l ++ [name]) .directory).entryAt? (l ++ [name]) = some .directory := by
        rw [entryAt?_put d (by simp), if_pos rfl]
      refine ⟨grows, fun _ => ?_⟩
      have found := locate_of_locateNew new grows.keeps there fun _ => rfl
      simp [isDirectory, find?, found, there]

/-- Settling an attempt keeps what the attempt kept, and then success means that the path names a
directory. -/
theorem settle_spec {P : Disk → Prop} {p : Path} {made : Disk × Except Fault Unit} (kept : P made.1)
    (there : made.2 = .ok () → made.1.isDirectory p = true) :
    P (settle p made).1 ∧
      ((settle p made).2 = .ok () → (settle p made).1.isDirectory p = true) := by
  obtain ⟨d', result⟩ := made
  cases result with
  | ok => exact ⟨kept, there⟩
  | error f =>
    simp only [settle]
    split
    · rename_i directory
      exact ⟨kept, fun _ => directory⟩
    · exact ⟨kept, by simp⟩

/-- Making a directory and those above it keeps what making one directory keeps, and if it succeeds,
the path names a directory. -/
theorem makeDirectoriesUpTo_spec {P : Disk → Prop}
    (one : ∀ d p, P d → P (d.makeDirectory p).1) (fuel : Nat) {d : Disk} (start : P d) (p : Path) :
    P (makeDirectoriesUpTo fuel d p).1 ∧
      ((makeDirectoriesUpTo fuel d p).2 = .ok () → p.text ≠ "" →
        (makeDirectoriesUpTo fuel d p).1.isDirectory p = true) := by
  induction fuel generalizing d p with
  | zero =>
    obtain ⟨settled, found⟩ := settle_spec (one d p start) (makeDirectory_spec d p).2
    exact ⟨settled, fun ok _ => found ok⟩
  | succ fuel ih =>
    rw [makeDirectoriesUpTo]
    split
    · rename_i empty
      exact ⟨start, fun _ ne => absurd (String.isEmpty_iff.mp empty) ne⟩
    · have kept := one d p start
      split
      · -- The directory above is missing, so it is made first.
        rename_i d₁ attempt
        rw [attempt] at kept
        split
        · exact ⟨kept, by simp⟩
        · rename_i above _
          obtain ⟨keptAbove, -⟩ := ih kept above
          split
          · rename_i d₂ madeAbove
            rw [madeAbove] at keptAbove
            obtain ⟨settled, found⟩ :=
              settle_spec (one d₂ p keptAbove) (makeDirectory_spec d₂ p).2
            exact ⟨settled, fun ok _ => found ok⟩
          · rename_i failed
            exact ⟨keptAbove, fun ok => (failed _ (Prod.ext rfl ok)).elim⟩
      · obtain ⟨settled, found⟩ := settle_spec kept (makeDirectory_spec d p).2
        exact ⟨settled, fun ok _ => found ok⟩

/-- What making one directory keeps, making directories keeps. -/
theorem makeDirectories_keeps {P : Disk → Prop} (one : ∀ d p, P d → P (d.makeDirectory p).1)
    (start : P d) (p : Path) : P (d.makeDirectories p).1 :=
  (makeDirectoriesUpTo_spec one _ start p).1

/-- Making directories only adds directories. -/
theorem grows_makeDirectories (d : Disk) (p : Path) : d.Grows (d.makeDirectories p).1 :=
  makeDirectories_keeps (fun d' p' grows => grows.trans (makeDirectory_spec d' p').1) (.refl d) p

/-- If the directories could be made, the path names one. -/
theorem isDirectory_makeDirectories {p : Path} (ne : p.text ≠ "")
    (made : (d.makeDirectories p).2 = .ok ()) : (d.makeDirectories p).1.isDirectory p = true :=
  (makeDirectoriesUpTo_spec (P := fun _ => True) (fun _ _ _ => trivial) _ trivial p).2 made ne

/-- What a path to a directory leads to. -/
theorem locate_of_isDirectory {p : Path} (directory : d.isDirectory p = true) :
    d.locate p = .ok (d.place p) ∧ d.entryAt? (d.place p) = some .directory := by
  rw [isDirectory, beq_iff_eq, find?] at directory
  split at directory
  · rename_i l located
    obtain rfl := locate_eq_ok located
    exact ⟨located, directory⟩
  · cases directory

/-- If the directories could be made, there is one at the place of the path. -/
theorem entryAt?_makeDirectories {p : Path} (ne : p.text ≠ "")
    (made : (d.makeDirectories p).2 = .ok ()) :
    (d.makeDirectories p).1.entryAt? (d.place p) = some .directory := by
  have there := (locate_of_isDirectory (isDirectory_makeDirectories ne made)).2
  rwa [(grows_makeDirectories d p).keeps.place_eq p] at there

/-! ### Writing files -/

/-- Writing a file either fails and changes nothing, or puts the file in a new place or in place of
a file. -/
theorem writeText_cases (d : Disk) (p : Path) (s : String) :
    (∃ f, d.writeText p s = (d, .error f)) ∨
      ∃ l name x, d.locateNew p = .ok (l, name) ∧ p.endsInSlash = false ∧
        d.entryAt? (l ++ [name]) ≠ some .directory ∧
        d.writeText p s = (d.put (l ++ [name]) (.file (.text s) x), .ok ()) := by
  unfold writeText
  cases slash : p.endsInSlash with
  | true => simp
  | false =>
    cases new : d.locateNew p with
    | error f => cases f <;> simp
    | ok place =>
      obtain ⟨l, name⟩ := place
      cases there : d.entryAt? (l ++ [name]) with
      | none => exact .inr ⟨l, name, false, rfl, rfl, by simp [there], by simp [there]⟩
      | some e =>
        cases e with
        | directory => simp [there]
        | file c x => exact .inr ⟨l, name, x, rfl, rfl, by simp [there], by simp [there]⟩

/-- Writing a file in a directory fails and changes nothing, or puts the file at the place of the
directory, where it is found from then on. -/
theorem writeText_child (d : Disk) (folder : Path) (name : String) (legal : Path.IsName name)
    (s : String) :
    (∃ f, d.writeText (folder.child name) s = (d, .error f)) ∨
      ∃ x, d.writeText (folder.child name) s =
          (d.put (d.place folder ++ [name]) (.file (.text s) x), .ok ()) ∧
        d.entryAt? (d.place folder) = some .directory ∧
        d.Keeps (d.put (d.place folder ++ [name]) (.file (.text s) x)) ∧
        (d.put (d.place folder ++ [name]) (.file (.text s) x)).locate (folder.child name) =
          .ok (d.place folder ++ [name]) := by
  rcases writeText_cases d (folder.child name) s with failed | ⟨l, n, x, new, noSlash, free, wrote⟩
  · exact .inl failed
  · obtain ⟨text, pieces, walked, above, named, short⟩ := locateNew_eq_ok new
    rw [Path.pieces_child legal, List.dropLast_concat] at pieces walked
    obtain rfl : name = n := by simpa using pieces
    have origin : d.origin (folder.child name) = d.origin folder := by
      simp [Disk.origin, Path.isAbsolute_child legal]
    obtain rfl : l = d.place folder := by rw [walk_eq_ok walked, origin, place]
    have keeps := keeps_put_file (l := d.place folder ++ [name]) (by simp) free (.text s) x
    have there : (d.put (d.place folder ++ [name]) (.file (.text s) x)).entryAt?
        (d.place folder ++ [name]) = some (.file (.text s) x) := by
      rw [entryAt?_put d (by simp), if_pos rfl]
    exact .inr ⟨x, wrote, above, keeps,
      locate_of_locateNew new keeps there fun slash => absurd slash (by simp [noSlash])⟩

end Disk

end FpgaProject
