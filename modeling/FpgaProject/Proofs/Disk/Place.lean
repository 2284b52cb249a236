import Mathlib.Data.List.Induction
import FpgaProject.Disk.Access
import FpgaProject.Proofs.Path.Pieces

/-!
Where a path leads by its text, and what the disk adds to that.

`Disk.place` reads a path by its pieces alone: `.` stays, `..` goes up, a name goes down, whether or
not anything is there. A walk that comes to its end has come to that place (`walk_eq_ok`), and an
absolute form has the place of its path (`place_of_absolute?`). But a walk can fail where the place
is a directory all the same: it fails exactly if some name on the way is no directory and is left by
`..` later (`overlooks_iff`).
-/

namespace FpgaProject

namespace Disk

/-! ### Places -/

def step (l : Location) (piece : String) : Location :=
  if piece = "." then l else if piece = ".." then l.dropLast else l ++ [piece]

/-- The place that a path gives by its text. -/
def place (d : Disk) (p : Path) : Location :=
  p.pieces.foldl step (d.origin p)

@[simp] theorem step_dot (l : Location) : step l "." = l := by
  simp [step]

@[simp] theorem step_up (l : Location) : step l ".." = l.dropLast := by
  simp [step]

/-- A piece that is a name, and so leads to an entry below. -/
def Named (piece : String) : Prop :=
  piece ≠ "." ∧ piece ≠ ".."

instance (piece : String) : Decidable (Named piece) := inferInstanceAs (Decidable (_ ∧ _))

theorem step_name {piece : String} (h : Named piece) (l : Location) :
    step l piece = l ++ [piece] := by
  simp [step, h.1, h.2]

/-- A disk as a system keeps it: each entry has a name that it may have and stands in a directory,
and the working directory is one. -/
structure Sound (d : Disk) : Prop where
  named : ∀ l name e, d.entryAt? (l ++ [name]) = some e →
    Path.IsName name ∧ Named name ∧ name.utf8ByteSize ≤ nameLimit
  inDirectory : ∀ l name e, d.entryAt? (l ++ [name]) = some e → d.entryAt? l = some .directory
  cwdDirectory : d.entryAt? d.cwd = some .directory

/-- All but the root is listed. -/
theorem mem_entries {d : Disk} {l : Location} {name : String} {e : Entry}
    (there : d.entryAt? (l ++ [name]) = some e) : (l ++ [name], e) ∈ d.entries := by
  obtain ⟨before, after, split, -⟩ :=
    List.lookup_eq_some_iff.mp (by simpa [entryAt?] using there)
  simp [split]

/-- A disk is sound if each listed entry may stand where it is listed. -/
theorem Sound.of_entries {d : Disk} (cwd : d.entryAt? d.cwd = some .directory)
    (listed : ∀ x ∈ d.entries, ∀ name ∈ x.1.getLast?,
      (Path.IsName name ∧ Named name ∧ name.utf8ByteSize ≤ nameLimit) ∧
        d.entryAt? x.1.dropLast = some .directory) : d.Sound := by
  have legal : ∀ l name e, d.entryAt? (l ++ [name]) = some e →
      (Path.IsName name ∧ Named name ∧ name.utf8ByteSize ≤ nameLimit) ∧
        d.entryAt? l = some .directory := by
    intro l name e there
    simpa using listed _ (mem_entries there) name (by simp)
  exact ⟨fun l name e there => (legal l name e there).1,
    fun l name e there => (legal l name e there).2, cwd⟩

/-- All above an entry are directories. -/
theorem Sound.above {d : Disk} (sound : d.Sound) {l m : Location} {e : Entry}
    (there : d.entryAt? (l ++ m) = some e) (below : m ≠ []) : d.entryAt? l = some .directory := by
  induction m using List.reverseRecOn generalizing e with
  | nil => exact absurd rfl below
  | append_singleton m name ih =>
    rw [← List.append_assoc] at there
    have above := sound.inDirectory _ _ _ there
    by_cases empty : m = []
    · simpa [empty] using above
    · exact ih above empty

/-- The names of the working directory are names. -/
theorem Sound.names_of_entry {d : Disk} (sound : d.Sound) {l : Location} {e : Entry}
    (there : d.entryAt? l = some e) :
    ∀ name ∈ l, Path.IsName name ∧ Named name ∧ name.utf8ByteSize ≤ nameLimit := by
  intro name member
  obtain ⟨before, after, rfl⟩ := List.append_of_mem member
  have reached : ∃ e, d.entryAt? (before ++ [name]) = some e := by
    by_cases last : after = []
    · exact ⟨e, by simpa [last] using there⟩
    · exact ⟨_, sound.above (l := before ++ [name]) (m := after) (by simpa using there) last⟩
  obtain ⟨e', there'⟩ := reached
  exact sound.named _ _ _ there'

theorem Sound.directory_dropLast {d : Disk} (sound : d.Sound) {l : Location}
    (there : d.entryAt? l = some .directory) : d.entryAt? l.dropLast = some .directory := by
  cases l using List.reverseRecOn with
  | nil => exact there
  | append_singleton l name =>
    rw [List.dropLast_concat]
    exact sound.inDirectory _ _ _ there

/-! ### Walks -/

/-- A walk comes past its first piece from a directory, and only if a name is there. -/
theorem walk_cons_eq_ok_iff {d : Disk} {l m : Location} {piece : String} {pieces : List String} :
    d.walk l (piece :: pieces) = .ok m ↔
      d.entryAt? l = some .directory ∧
      (Named piece → piece.utf8ByteSize ≤ nameLimit ∧ d.entryAt? (l ++ [piece]) ≠ none) ∧
      d.walk (step l piece) pieces = .ok m := by
  rw [walk]
  cases start : d.entryAt? l with
  | none => simp
  | some e =>
    cases e with
    | file => simp
    | directory =>
      by_cases dot : piece = "."
      · simp [dot, Named]
      · by_cases up : piece = ".."
        · simp [up, Named]
        · simp only [dot, up, if_false, step, Named, true_and, and_self, ne_eq, not_false_eq_true,
            forall_const]
          by_cases long : nameLimit < piece.utf8ByteSize
          · simp [long, Nat.not_le_of_lt long]
          · simp only [long, if_false]
            cases next : d.entryAt? (l ++ [piece]) with
            | none => simp
            | some e => simp [Nat.le_of_not_lt long]

/-- A walk that comes to its end has come to the place that the pieces give. -/
theorem walk_eq_ok {d : Disk} {l m : Location} {pieces : List String}
    (h : d.walk l pieces = .ok m) : m = pieces.foldl step l := by
  induction pieces generalizing l with
  | nil => simpa [walk] using h.symm
  | cons piece pieces ih => exact ih (walk_cons_eq_ok_iff.mp h).2.2

/-- A walk that comes to its end has found a directory under each name but the last. -/
theorem directory_of_walk_eq_ok {d : Disk} {l m : Location} {before rest : List String}
    {name : String} (h : d.walk l (before ++ name :: rest) = .ok m) (named : Named name)
    (goesOn : rest ≠ []) : d.entryAt? (before.foldl step l ++ [name]) = some .directory := by
  induction before generalizing l with
  | nil =>
    obtain ⟨next, rest, rfl⟩ := List.exists_cons_of_ne_nil goesOn
    have second := (walk_cons_eq_ok_iff.mp h).2.2
    rw [step_name named] at second
    exact (walk_cons_eq_ok_iff.mp second).1
  | cons piece before ih => exact ih (walk_cons_eq_ok_iff.mp h).2.2

/-- A walk from a directory that fails has met a name under which there is no directory. -/
theorem exists_of_walk_ne_ok {d : Disk} (sound : d.Sound) {l : Location} {pieces : List String}
    (start : d.entryAt? l = some .directory) (fails : ∀ m, d.walk l pieces ≠ .ok m) :
    ∃ before name rest, pieces = before ++ name :: rest ∧ Named name ∧
      d.entryAt? (before.foldl step l ++ [name]) ≠ some .directory := by
  induction pieces generalizing l with
  | nil => exact absurd rfl (fails l)
  | cons piece pieces ih =>
    by_cases blocked : Named piece ∧ d.entryAt? (l ++ [piece]) ≠ some .directory
    · exact ⟨[], piece, pieces, rfl, blocked.1, blocked.2⟩
    · have next : d.entryAt? (step l piece) = some .directory := by
        by_cases dot : piece = "."
        · simpa [dot] using start
        · by_cases up : piece = ".."
          · simpa [up] using sound.directory_dropLast start
          · rw [step_name ⟨dot, up⟩]
            by_contra none
            exact blocked ⟨⟨dot, up⟩, none⟩
      have passed : Named piece →
          piece.utf8ByteSize ≤ nameLimit ∧ d.entryAt? (l ++ [piece]) ≠ none := by
        intro named
        rw [step_name named] at next
        exact ⟨(sound.named _ _ _ next).2.2, by simp [next]⟩
      obtain ⟨before, name, rest, rfl, named, found⟩ :=
        ih next fun m ok => fails m (walk_cons_eq_ok_iff.mpr ⟨start, passed, ok⟩)
      exact ⟨piece :: before, name, rest, rfl, named, found⟩

/-! ### Paths -/

/-- A text can be looked up if it holds no NUL, is not empty and is not too long. -/
theorem textFault?_eq_none_iff {p : Path} :
    textFault? p = none ↔ '\x00' ∉ p.chars ∧ p.text ≠ "" ∧ p.text.utf8ByteSize < pathLimit := by
  unfold textFault?
  split
  · rename_i nul
    simp [List.contains_iff_mem.mp nul]
  · rename_i nul
    split
    · rename_i empty
      simp [String.isEmpty_iff.mp empty]
    · rename_i given
      split
      · rename_i long
        simp [Nat.not_lt_of_le long]
      · rename_i short
        simp only [true_iff]
        exact ⟨fun member => nul (List.contains_iff_mem.mpr member),
          mt String.isEmpty_iff.mpr given, Nat.lt_of_not_le short⟩

/-- The text of a path that leads somewhere is in order. -/
theorem textFault?_of_locate {d : Disk} {p : Path} {l : Location} (h : d.locate p = .ok l) :
    textFault? p = none := by
  cases text : textFault? p with
  | none => rfl
  | some f => simp [locate, text] at h

/-- The pieces that are walked: a slash at the end asks for one step more. -/
theorem locate_eq {d : Disk} {p : Path} (text : textFault? p = none) :
    d.locate p = d.walk (d.origin p) (p.pieces ++ if p.endsInSlash then ["."] else []) := by
  simp [locate, text]

theorem foldl_step_slash (p : Path) (l : Location) :
    (p.pieces ++ if p.endsInSlash then ["."] else []).foldl step l = p.pieces.foldl step l := by
  rw [List.foldl_append]
  split <;> simp

/-- What a path names stands at its place. -/
theorem locate_eq_ok {d : Disk} {p : Path} {l : Location} (h : d.locate p = .ok l) :
    l = d.place p := by
  rw [locate_eq (textFault?_of_locate h)] at h
  rw [walk_eq_ok h, foldl_step_slash, place]

theorem foldl_step_names {names : List String} (h : ∀ name ∈ names, Named name) (l : Location) :
    names.foldl step l = l ++ names := by
  induction names generalizing l with
  | nil => simp
  | cons name names ih =>
    rw [List.foldl_cons, step_name (h name List.mem_cons_self),
      ih fun n hn => h n (List.mem_cons_of_mem _ hn), List.append_assoc, List.singleton_append]

theorem foldl_step_keptPieces (p : Path) (l : Location) :
    p.keptPieces.foldl step l = p.pieces.foldl step l := by
  unfold Path.keptPieces
  induction p.pieces generalizing l with
  | nil => rfl
  | cons piece pieces ih =>
    by_cases dot : piece = "."
    · simpa [dot] using ih l
    · simpa [dot] using ih (step l piece)

theorem chars_pathOf (l : Location) :
    (pathOf l).chars = '/' :: Text.joinWith '/' (l.map String.toList) := by
  rw [← Text.toList_intercalate_singleton]
  simp only [Path.chars, pathOf, String.toList_append]
  rfl

/-- The pieces of the path of a location are its names. -/
theorem pieces_pathOf {l : Location} (h : ∀ name ∈ l, Path.IsName name) : (pathOf l).pieces = l := by
  have chars : (pathOf l).chars = [] ++ '/' :: Text.joinWith '/' (l.map String.toList) :=
    chars_pathOf l
  rw [Path.pieces_eq_names, chars, Path.names_append_slash, Path.names_nil, List.nil_append,
    Path.names]
  by_cases empty : l = []
  · simp [empty, Text.joinWith]
  · rw [Text.splitAt_joinWith (by simpa using empty)]
    · rw [List.filter_eq_self.mpr]
      · simp [List.map_map, Function.comp_def]
      · intro piece hp
        obtain ⟨name, hn, rfl⟩ := List.mem_map.mp hp
        simpa using (h name hn).1
    · intro piece hp
      obtain ⟨name, hn, rfl⟩ := List.mem_map.mp hp
      exact (h name hn).2

theorem isAbsolute_cwdPath (d : Disk) : d.cwdPath.isAbsolute = true := by
  simp [cwdPath, pathOf, Path.isAbsolute, Path.chars]

/-- The absolute form of a path has the place of the path. -/
theorem place_of_absolute? {d : Disk} (sound : d.Sound) {p q : Path}
    (hq : p.absolute? d.cwdPath = some q) : d.place q = d.place p := by
  have legal := sound.names_of_entry sound.cwdDirectory
  have absolute : q.isAbsolute = true := Path.isAbsolute_absolute? d.isAbsolute_cwdPath hq
  have cwd : d.cwd.foldl step [] = d.cwd := by
    simpa using foldl_step_names (fun name hn => (legal name hn).2.1) []
  have cwdPieces : d.cwdPath.pieces = d.cwd := pieces_pathOf fun name hn => (legal name hn).1
  simp only [place, origin, absolute, if_true, Path.pieces_absolute? hq]
  rw [List.foldl_append, foldl_step_keptPieces]
  by_cases own : p.isAbsolute = true
  · simp [own]
  · simp [own, cwdPieces, cwd]

/-! ### What a check of a path can overlook -/

/-- The path is taken not to exist, and there is a directory at its place all the same. -/
def Overlooks (d : Disk) (p : Path) : Prop :=
  d.pathExists p = false ∧ d.entryAt? (d.place p) = some .directory

instance (d : Disk) (p : Path) : Decidable (d.Overlooks p) :=
  inferInstanceAs (Decidable (_ ∧ _))

/-- A name on the way of a path under which there is no directory is left by `..` later on. -/
def Strays (d : Disk) (p : Path) : Prop :=
  ∃ before name rest, p.pieces = before ++ name :: rest ∧ Named name ∧ ".." ∈ rest ∧
    d.entryAt? (before.foldl step (d.origin p) ++ [name]) ≠ some .directory

theorem directory_origin {d : Disk} (sound : d.Sound) (p : Path) :
    d.entryAt? (d.origin p) = some .directory := by
  unfold origin
  split
  · exact entryAt?_root d
  · exact sound.cwdDirectory

theorem foldl_step_named {pieces : List String} (down : ".." ∉ pieces) (l : Location) :
    ∃ below, pieces.foldl step l = l ++ below := by
  induction pieces generalizing l with
  | nil => exact ⟨[], by simp⟩
  | cons piece pieces ih =>
    obtain ⟨below, hbelow⟩ := ih (fun m => down (List.mem_cons_of_mem _ m)) (step l piece)
    by_cases dot : piece = "."
    · exact ⟨below, by simpa [dot] using hbelow⟩
    · have named : Named piece := ⟨dot, fun up => down (up ▸ List.mem_cons_self)⟩
      exact ⟨piece :: below, by simpa [step_name named] using hbelow⟩

theorem pathExists_of_textFault {d : Disk} {p : Path} (h : textFault? p ≠ none) :
    d.pathExists p = false := by
  obtain ⟨f, hf⟩ := Option.ne_none_iff_exists'.mp h
  simp [pathExists, find?, locate, hf]

/-- A directory is overlooked exactly if the text of the path is refused, or if a name on its way
that is no directory is left by `..` later on. -/
theorem overlooks_iff {d : Disk} (sound : d.Sound) (p : Path) :
    d.Overlooks p ↔ d.entryAt? (d.place p) = some .directory ∧
      (textFault? p ≠ none ∨ d.Strays p) := by
  let slash := if p.endsInSlash then ["."] else []
  constructor
  · rintro ⟨missed, there⟩
    refine ⟨there, ?_⟩
    by_contra fine
    obtain ⟨text, straight⟩ : textFault? p = none ∧ ¬ d.Strays p := by
      simpa [not_or] using fine
    have fails : ∀ m, d.walk (d.origin p) (p.pieces ++ slash) ≠ .ok m := by
      intro m ok
      have found : d.locate p = .ok m := by rw [locate_eq text]; exact ok
      rw [pathExists, find?, found, locate_eq_ok found] at missed
      simp [there] at missed
    obtain ⟨before, name, rest, split, named, blocked⟩ :=
      exists_of_walk_ne_ok sound (directory_origin sound p) fails
    rcases Text.occurs_in_append split with ⟨rest, split⟩ | ⟨later, -, inSlash⟩
    · -- Without `..` the place would be below the name, or be what it names.
      refine straight ⟨before, name, rest, split, named, ?_, blocked⟩
      by_contra down
      obtain ⟨below, reached⟩ :=
        foldl_step_named down (before.foldl step (d.origin p) ++ [name])
      have placed : d.place p = before.foldl step (d.origin p) ++ [name] ++ below := by
        rw [place, split, List.foldl_append, List.foldl_cons, step_name named, reached]
      rw [placed] at there
      by_cases last : below = []
      · exact blocked (by simpa [last] using there)
      · exact blocked (sound.above there last)
    · have member : name ∈ slash := by simp [inSlash]
      simp only [slash] at member
      split at member
      · exact named.1 (by simpa using member)
      · simp at member
  · rintro ⟨there, refused | ⟨before, name, rest, split, named, up, blocked⟩⟩
    · exact ⟨pathExists_of_textFault refused, there⟩
    · refine ⟨?_, there⟩
      cases text : textFault? p with
      | some f => exact pathExists_of_textFault (by simp [text])
      | none =>
        cases walked : d.locate p with
        | error f => simp [pathExists, find?, walked]
        | ok m =>
          exfalso
          rw [locate_eq text, split, List.append_assoc, List.cons_append] at walked
          refine blocked (directory_of_walk_eq_ok walked named ?_)
          exact List.append_ne_nil_of_left_ne_nil (List.ne_nil_of_mem up) _

end Disk

end FpgaProject
