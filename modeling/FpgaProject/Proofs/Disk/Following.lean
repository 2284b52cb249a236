import Mathlib.Data.String.Basic
import FpgaProject.Proofs.Disk.Listing
import FpgaProject.Proofs.Disk.Spelling

/-!
The walk of a listing.

A listing takes the text of a path piece by piece and writes it anew (`Disk.respelled`): without the
`./` at its start, and with a single slash between two pieces. If a directory is found under the
path, it is found under what has been written, and the paths of the listing stand below that
(`list_eq`); but in a relative path no empty piece may come right behind the dots at its start, for
then the walk leads nowhere (`list_of_startsBlank`).

What a walk has written once is written alike by the next one (`Path.Walked`, `list_of_walked`), so
from a path that comes out of a listing one can go on listing.
-/

namespace FpgaProject

open Text

/-! ### Texts with fewer characters -/

theorem Path.utf8ByteSize_text (p : Path) : p.text.utf8ByteSize = String.utf8Len p.chars :=
  (String.utf8Len_toList p.text).symm

namespace Disk

/-- The text of a path is in order if it is made of characters of one that is. -/
theorem textFault?_of_sublist {p q : Path} (part : q.chars.Sublist p.chars)
    (given : q.text ≠ "") (text : textFault? p = none) : textFault? q = none := by
  obtain ⟨noNul, -, short⟩ := textFault?_eq_none_iff.mp text
  refine textFault?_eq_none_iff.mpr ⟨fun nul => noNul (part.subset nul), given, ?_⟩
  have shorter := String.utf8Len_le_of_sublist part
  rw [Path.utf8ByteSize_text] at short ⊢
  omega

/-- A text is in order if the text of something below is. -/
theorem textFault?_of_child {p : Path} {name : String} (given : p.text ≠ "")
    (legal : Path.IsName name) (text : textFault? (p.child name) = none) : textFault? p = none := by
  refine textFault?_of_sublist ?_ given text
  rw [Path.child, Path.chars_join given (Path.isAbsolute_name legal)]
  exact List.sublist_append_left _ _

/-! ### Respelling -/

/-- What a walk has written when it is one piece further. -/
def further (at_ : Path) (piece : List Char) : Path :=
  stepTo at_ (String.ofList piece)

/-- What a walk has written at the end of a path. -/
def respelled (p : Path) : Path :=
  (route p).2.foldl further (route p).1

/-- In a relative path, the pieces from the first on that is no `.`. -/
def undotted (p : Path) : List (List Char) :=
  (splitAt '/' p.chars).dropWhile (· = ['.'])

/-- A relative path in which an empty piece comes right behind the dots at its start, like `./` and
`.//a`. -/
def startsBlank (p : Path) : Bool :=
  !p.isAbsolute && (undotted p).head? == some []

variable {d : Disk} {p at_ : Path} {l m : Location} {piece : List Char}

theorem stepTo_of_ne (notDot : at_.text ≠ ".") (name : String) : stepTo at_ name = at_.child name :=
  if_neg notDot

/-- From `.` a piece stands alone. -/
theorem stepTo_dot (name : String) : stepTo ⟨"."⟩ name = (⟨""⟩ : Path).child name := by
  simp [stepTo, Path.child, Path.join]

/-! ### One piece further -/

/-- From where a path leads, one name leads to what stands below the path. -/
theorem locate_stepTo_eq_ok_iff {name : String} (found : d.locate at_ = .ok l)
    (legal : Path.IsName name) (text : textFault? (stepTo at_ name) = none) :
    d.locate (stepTo at_ name) = .ok m ↔ d.walk l [name] = .ok m := by
  have below : ∀ q : Path, textFault? (q.child name) = none →
      (d.locate (q.child name) = .ok m ↔
        ∃ k, d.walk (d.origin q) q.pieces = .ok k ∧ d.walk k [name] = .ok m) := by
    intro q text
    rw [locate_eq text, Path.endsInSlash_child legal, Path.pieces_child legal,
      ← walk_append_eq_ok_iff]
    simp [origin, Path.isAbsolute_child legal]
  have here := walk_pieces_of_locate found
  by_cases dot : at_.text = "."
  · obtain rfl : at_ = ⟨"."⟩ := congrArg Path.mk dot
    have cwd : l = d.cwd := by
      have pieces : (⟨"."⟩ : Path).pieces = ["."] := by decide +kernel
      rw [pieces] at here
      simpa [origin, Path.isAbsolute, Path.chars] using walk_eq_ok here
    have nothing : (⟨""⟩ : Path).pieces = [] := by decide +kernel
    rw [stepTo_dot] at text ⊢
    rw [below _ text, nothing, cwd]
    simp [walk, origin, Path.isAbsolute, Path.chars]
  · rw [stepTo_of_ne dot] at text ⊢
    rw [below _ text, here]
    simp

/-- On a sound disk, what stands below a path is found there as long as the text can be looked up. -/
theorem locate_stepTo_named_iff (sound : d.Sound) {name : String} (found : d.locate at_ = .ok l)
    (legal : Path.IsName name) (named : Named name) (text : textFault? (stepTo at_ name) = none) :
    d.locate (stepTo at_ name) = .ok m ↔ m = l ++ [name] ∧ d.entryAt? m ≠ none := by
  rw [locate_stepTo_eq_ok_iff found legal text, walk_cons_eq_ok_iff, step_name named]
  constructor
  · rintro ⟨-, passed, rest⟩
    obtain rfl := Except.ok.inj rest
    exact ⟨rfl, (passed named).2⟩
  · rintro ⟨rfl, present⟩
    obtain ⟨e, there⟩ := Option.ne_none_iff_exists'.mp present
    exact ⟨sound.inDirectory _ _ _ there, fun _ => ⟨(sound.named _ _ _ there).2.2, present⟩, rfl⟩

/-- An empty piece puts a slash to the end of a path, and so it leads where the path does if that is
a directory. -/
theorem locate_child_empty (found : d.locate at_ = .ok l) (there : d.entryAt? l = some .directory)
    (text : textFault? (at_.child "") = none) : d.locate (at_.child "") = .ok l := by
  have given := (textFault?_eq_none_iff.mp (textFault?_of_locate found)).2.1
  have start : d.origin (at_.child "") = d.origin at_ := by
    rw [origin, Path.child, Path.isAbsolute_join_of_relative given rfl]
    rfl
  refine locate_of_walk_pieces text ?_ there
  rw [start, Path.pieces_child_empty]
  exact walk_pieces_of_locate found

/-- The names among pieces: those that are not empty. -/
def counted (pieces : List (List Char)) : List String :=
  (pieces.filter (· ≠ [])).map String.ofList

theorem counted_append (first second : List (List Char)) :
    counted (first ++ second) = counted first ++ counted second := by
  rw [counted, counted, counted, ← List.map_append, ← List.filter_append]

theorem counted_cons (pieces : List (List Char)) :
    counted (piece :: pieces) = counted [piece] ++ counted pieces :=
  counted_append [piece] pieces

/-- A walk goes on at an empty piece, but not from `.`. -/
theorem advance?_empty (found : d.locate at_ = .ok l) (there : d.entryAt? l = some .directory)
    (notDot : at_.text ≠ ".") (text : textFault? (further at_ []) = none) :
    d.advance? at_ [] = some (further at_ []) ∧ d.locate (further at_ []) = .ok l := by
  have next : further at_ [] = at_.child "" := stepTo_of_ne notDot ""
  rw [next] at text ⊢
  have arrived := locate_child_empty found there text
  refine ⟨?_, arrived⟩
  have exists_ : d.pathExists (at_.child "") = true := by
    simp [pathExists, find?, arrived, there]
  have plain : isSearched [] = false := rfl
  have written : stepTo at_ "" = at_.child "" := stepTo_of_ne notDot ""
  simp [advance?, plain, written, exists_]

/-- From a directory, a walk goes on to each name that leads on: to dots at once, and to other names
by their entry, whether they are looked for or asked for. -/
theorem advance?_named {name : String} (found : d.locate at_ = .ok l)
    (there : d.entryAt? l = some .directory) (arrived : d.locate (stepTo at_ name) = .ok m)
    (walked : d.walk l [name] = .ok m) : d.advance? at_ name.toList = some (stepTo at_ name) := by
  obtain ⟨-, passed, rest⟩ := walk_cons_eq_ok_iff.mp walked
  obtain rfl : m = step l name := by simpa [walk, eq_comm] using rest
  unfold advance?
  by_cases special : name = "." ∨ name = ".."
  · have plain : isSearched name.toList = false := by rcases special with rfl | rfl <;> rfl
    have directory : d.isDirectory at_ = true := by simp [isDirectory, find?, found, there]
    simp [plain, special, directory]
  · have named : Named name := not_or.mp special
    obtain ⟨-, present⟩ := passed named
    rw [step_name named] at arrived
    by_cases searched : isSearched name.toList = true
    · have member := mem_names_iff.mpr present
      simp [searched, found, there, member]
    · have exists_ : d.pathExists (stepTo at_ name) = true := by
        simpa [pathExists, find?, arrived, Option.isSome_iff_ne_none] using present
      simp [searched, special, exists_]

/-- A walk goes on to each piece that leads on, but for an empty one from `.`. -/
theorem advance?_eq (found : d.locate at_ = .ok l) (there : d.entryAt? l = some .directory)
    (free : '/' ∉ piece) (notAlone : piece = [] → at_.text ≠ ".")
    (text : textFault? (further at_ piece) = none)
    (walked : d.walk l (counted [piece]) = .ok m) :
    d.advance? at_ piece = some (further at_ piece) ∧ d.locate (further at_ piece) = .ok m := by
  by_cases empty : piece = []
  · subst empty
    obtain rfl : m = l := by simpa [counted, walk, eq_comm] using walked
    exact advance?_empty found there (notAlone rfl) text
  · have legal : Path.IsName (String.ofList piece) := ⟨by simpa using empty, by simpa using free⟩
    have single : counted [piece] = [String.ofList piece] := by simp [counted, empty]
    rw [single] at walked
    have arrived := (locate_stepTo_eq_ok_iff found legal text).mpr walked
    have taken := advance?_named found there arrived walked
    rw [String.toList_ofList] at taken
    exact ⟨taken, arrived⟩

/-! ### To the end of a path -/

/-- The slash that stands between a path and what is written behind it. -/
def glue (p : Path) : List Char :=
  if p.endsInSlash then [] else ['/']

theorem chars_further (notDot : at_.text ≠ ".") (given : at_.text ≠ "") (free : '/' ∉ piece) :
    (further at_ piece).chars = at_.chars ++ (glue at_ ++ piece) := by
  have legal : '/' ∉ (String.ofList piece).toList := by simpa using free
  have joined := Path.chars_join given (Path.isAbsolute_of_notMem legal)
  rw [further, stepTo_of_ne notDot, Path.child, joined]
  simp [glue, Path.chars]

/-- A walk that has left `.` behind does not come back to it. -/
theorem text_further_ne (notDot : at_.text ≠ ".") (given : at_.text ≠ "") (free : '/' ∉ piece) :
    (further at_ piece).text ≠ "." ∧ (further at_ piece).text ≠ "" := by
  have written := chars_further notDot given free
  obtain ⟨c, cs, first⟩ := List.exists_cons_of_ne_nil (mt String.toList_eq_nil_iff.mp given)
  have first' : at_.chars = c :: cs := first
  rw [first', List.cons_append] at written
  constructor
  · intro dot
    have single : (further at_ piece).chars = ['.'] := by simp [Path.chars, dot]
    rw [single] at written
    obtain ⟨rfl, rest⟩ := List.cons.inj written
    obtain ⟨rfl, -⟩ := List.append_eq_nil_iff.mp rest.symm
    exact notDot (String.toList_injective first)
  · intro empty
    simp [Path.chars, empty] at written

theorem glue_append_sublist (p : Path) (s : List Char) : (glue p ++ s).Sublist ('/' :: s) := by
  unfold glue
  split
  · exact List.sublist_cons_self _ _
  · exact List.Sublist.refl _

/-- From a path that leads to a directory, a walk comes to each directory along its pieces. All that
it writes is part of a text that is in order. -/
theorem follow?_eq {pieces : List (List Char)} (notDot : at_.text ≠ ".")
    (found : d.locate at_ = .ok l) (free : ∀ piece ∈ pieces, '/' ∉ piece)
    (text : textFault? p = none)
    (part : pieces ≠ [] → (at_.chars ++ (glue at_ ++ joinWith '/' pieces)).Sublist p.chars)
    (walked : d.walk l (counted pieces) = .ok m) (there : d.entryAt? m = some .directory) :
    d.follow? at_ pieces = some (pieces.foldl further at_) ∧
      d.locate (pieces.foldl further at_) = .ok m := by
  induction pieces generalizing at_ l with
  | nil =>
    obtain rfl : m = l := by simpa [counted, walk, eq_comm] using walked
    exact ⟨rfl, found⟩
  | cons piece pieces ih =>
    have given := (textFault?_eq_none_iff.mp (textFault?_of_locate found)).2.1
    have freePiece := free piece List.mem_cons_self
    have written := chars_further notDot given freePiece
    have part := part (by simp)
    have directory := directory_of_walk walked there
    rw [counted_cons] at walked
    obtain ⟨middle, first, rest⟩ := walk_append_eq_ok_iff.mp walked
    obtain ⟨nextNotDot, nextGiven⟩ := text_further_ne notDot given freePiece
    have fits : (further at_ piece).chars.Sublist p.chars := by
      rw [written]
      refine List.Sublist.trans ?_ part
      have one : [piece] <+: piece :: pieces := ⟨pieces, rfl⟩
      have front : piece <+: joinWith '/' (piece :: pieces) := prefix_joinWith one
      exact ((front.sublist.append_left _).append_left _)
    obtain ⟨taken, arrived⟩ := advance?_eq found directory freePiece (fun _ => notDot)
      (textFault?_of_sublist fits nextGiven text) first
    obtain ⟨followed, ended⟩ := ih nextNotDot arrived
      (fun q hq => free q (List.mem_cons_of_mem _ hq)) (fun more => by
        refine List.Sublist.trans ?_ part
        rw [joinWith_cons more, written, List.append_assoc, List.append_assoc]
        have rest := (glue_append_sublist (further at_ piece) (joinWith '/' pieces)).append_left piece
        exact (rest.append_left _).append_left _) rest
    exact ⟨by rw [follow?, taken]; exact followed, ended⟩

/-! ### Dots at the start -/

theorem further_dot : further ⟨"."⟩ ['.'] = ⟨"."⟩ := by
  decide +kernel

theorem advance?_dot (d : Disk) :
    d.advance? ⟨"."⟩ ['.'] = if d.isDirectory ⟨"."⟩ then some ⟨"."⟩ else none := by
  have plain : isSearched ['.'] = false := rfl
  have next : stepTo ⟨"."⟩ "." = ⟨"."⟩ := further_dot
  simp [advance?, plain, next]

section

variable {dots : List (List Char)} (each : ∀ piece ∈ dots, piece = ['.'])

include each

/-- From a directory, dots at the start of a walk lead nowhere else. -/
theorem follow?_dots (directory : d.isDirectory ⟨"."⟩ = true) (rest : List (List Char)) :
    d.follow? ⟨"."⟩ (dots ++ rest) = d.follow? ⟨"."⟩ rest := by
  induction dots with
  | nil => rfl
  | cons piece dots ih =>
    obtain ⟨rfl, others⟩ := List.forall_mem_cons.mp each
    rw [List.cons_append, follow?, advance?_dot, if_pos directory]
    exact ih others

theorem foldl_further_dots (rest : List (List Char)) :
    (dots ++ rest).foldl further ⟨"."⟩ = rest.foldl further ⟨"."⟩ := by
  induction dots with
  | nil => rfl
  | cons piece dots ih =>
    obtain ⟨rfl, others⟩ := List.forall_mem_cons.mp each
    rw [List.cons_append, List.foldl_cons, further_dot]
    exact ih others

/-- An empty piece behind dots at the start of a walk leads nowhere. -/
theorem follow?_blank (d : Disk) (rest : List (List Char)) :
    d.follow? ⟨"."⟩ (dots ++ [] :: rest) = none := by
  induction dots with
  | nil =>
    have missing : d.pathExists ⟨""⟩ = false := pathExists_of_textFault (by decide)
    have plain : isSearched [] = false := rfl
    have next : stepTo ⟨"."⟩ "" = ⟨""⟩ := by decide
    simp [follow?, advance?, plain, next, missing]
  | cons piece dots ih =>
    obtain ⟨rfl, others⟩ := List.forall_mem_cons.mp each
    rw [List.cons_append, follow?, advance?_dot]
    split
    · exact ih others
    · rfl

theorem foldl_step_dots (l : Location) : (counted dots).foldl step l = l := by
  induction dots with
  | nil => rfl
  | cons piece dots ih =>
    obtain ⟨rfl, others⟩ := List.forall_mem_cons.mp each
    have dot : counted (['.'] :: dots) = "." :: counted dots := rfl
    rw [dot, List.foldl_cons, step_dot]
    exact ih others

end

/-! ### Listings -/

theorem locate_root (d : Disk) : d.locate ⟨"/"⟩ = .ok [] := by
  have fine : textFault? ⟨"/"⟩ = none := by decide
  have nothing : (⟨"/"⟩ : Path).pieces = [] := by decide +kernel
  have start : d.origin ⟨"/"⟩ = [] := rfl
  rw [locate_eq fine, nothing, start]
  simp [walk, Path.endsInSlash, Path.chars]

theorem locate_dot (cwd : d.entryAt? d.cwd = some .directory) : d.locate ⟨"."⟩ = .ok d.cwd := by
  have fine : textFault? ⟨"."⟩ = none := by decide
  have single : (⟨"."⟩ : Path).pieces = ["."] := by decide +kernel
  have start : d.origin ⟨"."⟩ = d.cwd := rfl
  rw [locate_eq fine, single, start]
  simp [walk, cwd, Path.endsInSlash, Path.chars]

/-- The pieces of a path are dots and those from the first on that is none. -/
theorem splitAt_eq_undotted (p : Path) :
    ∃ dots, (∀ piece ∈ dots, piece = ['.']) ∧ splitAt '/' p.chars = dots ++ undotted p := by
  refine ⟨(splitAt '/' p.chars).takeWhile (· = ['.']), fun piece member => ?_, ?_⟩
  · simpa using List.all_eq_true.mp List.all_takeWhile piece member
  · exact List.takeWhile_append_dropWhile.symm

theorem undotted_ne_dot {rest : List (List Char)} (left : undotted p = piece :: rest) :
    piece ≠ ['.'] := by
  have head := List.head?_dropWhile_not (fun q => decide (q = ['.'])) (splitAt '/' p.chars)
  unfold undotted at left
  rw [left] at head
  simpa using head

/-- The walk of an absolute path comes to the directory that is found under the path. -/
theorem follow?_of_isAbsolute (absolute : p.isAbsolute = true) (found : d.locate p = .ok l)
    (there : d.entryAt? l = some .directory) :
    d.follow? (route p).1 (route p).2 = some (respelled p) ∧ d.locate (respelled p) = .ok l := by
  obtain ⟨rest, chars⟩ : ∃ rest, p.chars = '/' :: rest := by
    cases hp : p.chars with
    | nil => simp [Path.isAbsolute, hp] at absolute
    | cons c rest =>
      obtain rfl : c = '/' := by simpa [Path.isAbsolute, hp] using absolute
      exact ⟨rest, rfl⟩
  have start : route p = (⟨"/"⟩, splitAt '/' rest) := by
    simp [route, absolute, chars, splitAt_cons_self]
  have walked : d.walk [] (counted (splitAt '/' rest)) = .ok l := by
    have walked := walk_pieces_of_locate found
    have pieces : p.pieces = counted (splitAt '/' rest) := by
      simp [Path.pieces, chars, splitAt_cons_self, counted]
    rwa [pieces, origin, if_pos absolute] at walked
  rw [respelled, start]
  have whole : (⟨"/"⟩ : Path).chars ++ (glue ⟨"/"⟩ ++ joinWith '/' (splitAt '/' rest)) = p.chars := by
    rw [joinWith_splitAt, chars]
    rfl
  have notDot : (⟨"/"⟩ : Path).text ≠ "." := by decide
  exact follow?_eq notDot (locate_root d) (fun _ => not_mem_of_mem_splitAt)
    (textFault?_of_locate found) (fun _ => whole ▸ List.Sublist.refl _) walked there

theorem chars_further_dot (piece : List Char) : (further ⟨"."⟩ piece).chars = piece := by
  rw [further, stepTo_dot]
  simp [Path.child, Path.join, Path.chars]

/-- From the working directory, a walk comes to each directory along pieces of which the first is
neither empty nor `.`. -/
theorem follow?_from_dot {pieces : List (List Char)} (cwd : d.entryAt? d.cwd = some .directory)
    (present : piece ≠ []) (notDot : piece ≠ ['.']) (free : ∀ q ∈ piece :: pieces, '/' ∉ q)
    (text : textFault? p = none) (part : (joinWith '/' (piece :: pieces)).Sublist p.chars)
    (walked : d.walk d.cwd (counted (piece :: pieces)) = .ok l)
    (there : d.entryAt? l = some .directory) :
    d.follow? ⟨"."⟩ (piece :: pieces) = some ((piece :: pieces).foldl further ⟨"."⟩) ∧
      d.locate ((piece :: pieces).foldl further ⟨"."⟩) = .ok l := by
  obtain ⟨freePiece, others⟩ := List.forall_mem_cons.mp free
  have written := chars_further_dot piece
  have nextNotDot : (further ⟨"."⟩ piece).text ≠ "." := fun dot =>
    notDot (by rw [← written, Path.chars, dot]; rfl)
  have nextGiven : (further ⟨"."⟩ piece).text ≠ "" := fun empty =>
    present (by rw [← written, Path.chars, empty]; rfl)
  have fits : (further ⟨"."⟩ piece).chars.Sublist p.chars := by
    have one : [piece] <+: piece :: pieces := ⟨pieces, rfl⟩
    have front : piece <+: joinWith '/' (piece :: pieces) := prefix_joinWith one
    rw [written]
    exact front.sublist.trans part
  rw [counted_cons] at walked
  obtain ⟨middle, first, rest⟩ := walk_append_eq_ok_iff.mp walked
  obtain ⟨taken, arrived⟩ := advance?_eq (locate_dot cwd) cwd freePiece
    (fun empty => absurd empty present) (textFault?_of_sublist fits nextGiven text) first
  rw [follow?, taken]
  refine follow?_eq nextNotDot arrived others text (fun more => ?_) rest there
  rw [joinWith_cons more] at part
  rw [written]
  exact ((glue_append_sublist _ _).append_left _).trans part

/-- So does the walk of a relative path, unless an empty piece comes behind dots at its start. -/
theorem follow?_of_relative (relative : p.isAbsolute = false) (found : d.locate p = .ok l)
    (there : d.entryAt? l = some .directory) (goesOn : startsBlank p = false) :
    d.follow? (route p).1 (route p).2 = some (respelled p) ∧ d.locate (respelled p) = .ok l := by
  have text := textFault?_of_locate found
  have given := (textFault?_eq_none_iff.mp text).2.1
  obtain ⟨dots, each, split⟩ := splitAt_eq_undotted p
  have start : route p = (⟨"."⟩, dots ++ undotted p) := by
    simp [route, relative, given, split]
  have walked := walk_pieces_of_locate found
  have pieces : p.pieces = counted dots ++ counted (undotted p) := by
    rw [← counted_append, ← split, counted, Path.pieces]
  rw [origin, if_neg (by simp [relative]), pieces] at walked
  have cwd := directory_of_walk walked there
  obtain ⟨middle, first, rest⟩ := walk_append_eq_ok_iff.mp walked
  obtain rfl : middle = d.cwd := by rw [walk_eq_ok first, foldl_step_dots each]
  have here := locate_dot cwd
  rw [respelled, start, follow?_dots each (by simp [isDirectory, find?, here, cwd]),
    foldl_further_dots each]
  cases left : undotted p with
  | nil =>
    rw [left] at rest
    obtain rfl : l = d.cwd := by simpa [counted, walk, eq_comm] using rest
    exact ⟨rfl, here⟩
  | cons piece more =>
    have present : piece ≠ [] := by
      rintro rfl
      simp [startsBlank, relative, left] at goesOn
    have behind : piece :: more <:+ splitAt '/' p.chars := by
      rw [split, left]
      exact List.suffix_append _ _
    have part : joinWith '/' (piece :: more) <:+ joinWith '/' (splitAt '/' p.chars) :=
      suffix_joinWith (by simp) behind
    rw [joinWith_splitAt] at part
    exact follow?_from_dot cwd present (undotted_ne_dot left)
      (fun q member => not_mem_of_mem_splitAt (behind.subset member)) text part.sublist
      (left ▸ rest) there

/-- The walk of a listing comes to the directory that is found under its path, unless an empty piece
comes behind dots at the start of the path. -/
theorem follow?_route (found : d.locate p = .ok l) (there : d.entryAt? l = some .directory)
    (goesOn : startsBlank p = false) :
    d.follow? (route p).1 (route p).2 = some (respelled p) ∧ d.locate (respelled p) = .ok l := by
  cases start : p.isAbsolute with
  | true => exact follow?_of_isAbsolute start found there
  | false => exact follow?_of_relative start found there goesOn

/-- A listing gives what stands in the directory, below the path as the walk has written it. -/
theorem list_eq (found : d.locate p = .ok l) (there : d.entryAt? l = some .directory)
    (goesOn : startsBlank p = false) (wanted : String → Bool) :
    d.list p wanted = ((d.names l).filter wanted).map (stepTo (respelled p)) := by
  obtain ⟨followed, arrived⟩ := follow?_route found there goesOn
  rw [list_eq_match, followed]
  simp only [arrived, there, if_true]

/-- A listing gives nothing if an empty piece comes behind dots at the start of its path. -/
theorem list_of_startsBlank (given : p.text ≠ "") (blank : startsBlank p = true) (d : Disk)
    (wanted : String → Bool) : d.list p wanted = [] := by
  obtain ⟨dots, each, split⟩ := splitAt_eq_undotted p
  obtain ⟨relative, head⟩ : p.isAbsolute = false ∧ (undotted p).head? = some [] := by
    simpa [startsBlank] using blank
  obtain ⟨rest, left⟩ := List.head?_eq_some_iff.mp head
  have start : route p = (⟨"."⟩, dots ++ [] :: rest) := by
    simp [route, relative, given, split, left]
  have nowhere : d.follow? (route p).1 (route p).2 = none := by
    rw [start]
    exact follow?_blank each d rest
  rw [list_eq_match, nowhere]

end Disk

/-! ### Paths that a walk has written -/

namespace Path

open Disk

/-- The paths that a walk can write, other than `.`. -/
inductive Walked : Path → Prop where
  | root : Walked ⟨"/"⟩
  | name {name : String} : IsName name → name ≠ "." → Walked ⟨name⟩
  | child {p : Path} {name : String} : Walked p → '/' ∉ name.toList → Walked (p.child name)

variable {p : Path} {name : String}

theorem Walked.text_ne (walked : p.Walked) : p.text ≠ "." ∧ p.text ≠ "" := by
  induction walked with
  | root => decide
  | name legal notDot => exact ⟨notDot, legal.1⟩
  | @child q name _ free ih =>
    have next : (further q name.toList).text ≠ "." ∧ (further q name.toList).text ≠ "" :=
      text_further_ne ih.1 ih.2 free
    rwa [further, stepTo_of_ne ih.1, String.ofList_toList] at next

/-- The pieces on the way to an entry are those on the way to the path above, and the name. -/
theorem route_child (given : p.text ≠ "") (free : '/' ∉ name.toList) :
    ∃ front, route (p.child name) = ((route p).1, front ++ [name.toList]) ∧
      ((route p).2 = front ∨ (route p).2 = front ++ [[]]) := by
  obtain ⟨piece, pieces, below, here⟩ := splitAt_child given free
  have same : (p.child name).isAbsolute = p.isAbsolute :=
    isAbsolute_join_of_relative given (isAbsolute_of_notMem free)
  have given' : (p.child name).text ≠ "" := by
    intro empty
    simp [chars, empty] at below
  unfold route
  rw [same, below]
  cases p.isAbsolute with
  | true =>
    refine ⟨pieces, rfl, ?_⟩
    rcases here with here | here <;> simp [here]
  | false =>
    refine ⟨piece :: pieces, by simp [given, given'], ?_⟩
    rcases here with here | here <;> simp [here, given]

/-- What a walk has written is written alike by another walk. -/
theorem Walked.respelled_eq (walked : p.Walked) : respelled p = p := by
  induction walked with
  | root => decide +kernel
  | @name name legal notDot =>
    have relative := isAbsolute_name legal
    have single : Text.splitAt '/' (⟨name⟩ : Path).chars = [name.toList] :=
      Text.splitAt_of_notMem legal.2
    have alone : stepTo ⟨"."⟩ name = ⟨name⟩ := by simp [stepTo]
    simp [respelled, route, relative, legal.1, single, further, alone]
  | @child p name walked free ih =>
    obtain ⟨notDot, given⟩ := walked.text_ne
    obtain ⟨front, below, here⟩ := route_child given free
    rw [respelled, below, List.foldl_append, List.foldl_cons, List.foldl_nil]
    rcases here with here | here
    · rw [respelled, here] at ih
      rw [ih, further, stepTo_of_ne notDot, String.ofList_toList]
    · -- The slash at the end was written for the empty piece.
      rw [respelled, here, List.foldl_append, List.foldl_cons, List.foldl_nil] at ih
      generalize front.foldl further (route p).1 = above at ih ⊢
      have aboveNotDot : above.text ≠ "." := by
        intro dot
        have nothing : further above [] = ⟨""⟩ := by simp [further, stepTo, dot]
        exact given (by rw [← ih, nothing])
      have aboveGiven : above.text ≠ "" := by
        intro empty
        have nothing : further above [] = ⟨""⟩ := by
          simp [further, stepTo, empty, Path.child, Path.join]
        exact given (by rw [← ih, nothing])
      rw [further, stepTo_of_ne aboveNotDot] at ih ⊢
      rw [String.ofList_toList, ← ih]
      exact (child_child_empty aboveGiven (isAbsolute_of_notMem free)).symm

/-- A walk that has been written starts with a slash or a name. -/
theorem Walked.startsBlank_eq (walked : p.Walked) : startsBlank p = false := by
  have start : p.isAbsolute = true ∨ ∃ piece rest, Text.splitAt '/' p.chars = piece :: rest ∧
      piece ≠ [] ∧ piece ≠ ['.'] := by
    induction walked with
    | root => exact .inl rfl
    | @name name legal notDot =>
      refine .inr ⟨name.toList, [], Text.splitAt_of_notMem legal.2, toList_ne_nil legal, ?_⟩
      exact fun dot => notDot (String.toList_injective dot)
    | @child p name walked free ih =>
      have given := walked.text_ne.2
      rcases ih with absolute | ⟨piece, rest, split, present, notDot⟩
      · exact .inl ((isAbsolute_join_of_relative given (isAbsolute_of_notMem free)).trans absolute)
      · obtain ⟨piece', pieces, below, here⟩ := splitAt_child given free
        obtain rfl : piece' = piece := by
          have same := split.symm
          rcases here with here | here <;>
            simpa [eq_comm] using (List.cons.inj (same.trans here)).1
        exact .inr ⟨piece', _, below, present, notDot⟩
  rcases start with absolute | ⟨piece, rest, split, present, notDot⟩
  · simp [startsBlank, absolute]
  · simp [startsBlank, undotted, split, notDot, present]

end Path

namespace Disk

variable {d : Disk} {p at_ q : Path} {l : Location} {piece : List Char}

/-- What a walk writes has no regard to the disk; but from `.` no empty piece leads on. -/
theorem advance?_eq_some (taken : d.advance? at_ piece = some q) :
    q = further at_ piece ∧ (piece = [] → at_.text ≠ ".") := by
  constructor
  · unfold advance? at taken
    dsimp only at taken
    repeat' split at taken
    all_goals first
      | exact (Option.some.inj taken).symm
      | cases taken
  · rintro rfl dot
    have missing : d.pathExists ⟨""⟩ = false := pathExists_of_textFault (by decide)
    have plain : isSearched [] = false := rfl
    have next : stepTo at_ "" = ⟨""⟩ := by simp [stepTo, dot]
    simp [advance?, plain, next, missing] at taken

theorem follow?_eq_some {pieces : List (List Char)} (followed : d.follow? at_ pieces = some q) :
    q = pieces.foldl further at_ := by
  induction pieces generalizing at_ with
  | nil => exact (Option.some.inj followed).symm
  | cons piece pieces ih =>
    obtain ⟨next, taken, rest⟩ := Option.bind_eq_some_iff.mp followed
    obtain ⟨rfl, -⟩ := advance?_eq_some taken
    exact ih rest

/-- A listing is empty, or its walk has come to a directory and written a path that leads there. -/
theorem list_cases_respelled (d : Disk) (p : Path) (wanted : String → Bool) :
    d.list p wanted = [] ∨ d.follow? (route p).1 (route p).2 = some (respelled p) ∧
      ∃ l, d.locate (respelled p) = .ok l ∧ d.entryAt? l = some .directory ∧
        d.list p wanted = ((d.names l).filter wanted).map (stepTo (respelled p)) := by
  rcases d.list_cases p wanted with nothing | ⟨at_, l, followed, found, there, all⟩
  · exact .inl nothing
  · obtain rfl : at_ = respelled p := follow?_eq_some followed
    exact .inr ⟨followed, l, found, there, all⟩

theorem start_route (p : Path) : (route p).1 = ⟨"."⟩ ∨ (route p).1.Walked := by
  unfold route
  split
  · exact .inr .root
  · split
    · exact .inr .root
    · exact .inl rfl

theorem free_route (p : Path) : ∀ piece ∈ (route p).2, '/' ∉ piece := by
  unfold route
  intro piece member
  split at member
  · exact not_mem_of_mem_splitAt (List.mem_of_mem_tail member)
  · split at member
    · cases member
    · exact not_mem_of_mem_splitAt member

/-- What a walk has written at its end is `.` or one of the paths that walks write. -/
theorem walked_of_follow? {pieces : List (List Char)} (start : at_ = ⟨"."⟩ ∨ at_.Walked)
    (free : ∀ piece ∈ pieces, '/' ∉ piece) (followed : d.follow? at_ pieces = some q) :
    q = ⟨"."⟩ ∨ q.Walked := by
  induction pieces generalizing at_ with
  | nil =>
    obtain rfl := Option.some.inj followed
    exact start
  | cons piece pieces ih =>
    obtain ⟨next, taken, rest⟩ := Option.bind_eq_some_iff.mp followed
    obtain ⟨rfl, notAlone⟩ := advance?_eq_some taken
    have freePiece := free piece List.mem_cons_self
    refine ih ?_ (fun x hx => free x (List.mem_cons_of_mem _ hx)) rest
    rcases start with rfl | walked
    · by_cases dot : piece = ['.']
      · exact .inl (dot ▸ further_dot)
      · have alone : further ⟨"."⟩ piece = ⟨String.ofList piece⟩ := by simp [further, stepTo]
        have present : piece ≠ [] := fun empty => notAlone empty rfl
        rw [alone]
        exact .inr (.name ⟨by simpa using present, by simpa using freePiece⟩
          fun e => dot (by simpa using congrArg String.toList e))
    · rw [further, stepTo_of_ne walked.text_ne.1]
      exact .inr (.child walked (by simpa using freePiece))

theorem walked_stepTo (start : at_ = ⟨"."⟩ ∨ at_.Walked) {name : String} (legal : Path.IsName name)
    (named : Named name) : (stepTo at_ name).Walked := by
  rcases start with rfl | walked
  · have alone : stepTo ⟨"."⟩ name = ⟨name⟩ := by simp [stepTo]
    rw [alone]
    exact .name legal named.1
  · rw [stepTo_of_ne walked.text_ne.1]
    exact .child walked legal.2

/-- The paths of a listing are written by a walk. -/
theorem walked_of_mem_list (sound : d.Sound) {wanted : String → Bool}
    (member : q ∈ d.list p wanted) : q.Walked := by
  rcases d.list_cases_respelled p wanted with nothing | ⟨followed, l, -, -, all⟩
  · simp [nothing] at member
  · rw [all] at member
    obtain ⟨name, named, rfl⟩ := List.mem_map.mp member
    obtain ⟨e, present⟩ :=
      Option.ne_none_iff_exists'.mp (mem_names_iff.mp (List.mem_filter.mp named).1)
    obtain ⟨legal, proper, -⟩ := sound.named _ _ _ present
    exact walked_stepTo (walked_of_follow? (start_route p) (free_route p) followed) legal proper

/-- From a directory that a walk has written, a listing gives the names there behind its path. -/
theorem list_of_walked (walked : p.Walked) (found : d.locate p = .ok l)
    (there : d.entryAt? l = some .directory) (wanted : String → Bool) :
    d.list p wanted = ((d.names l).filter wanted).map p.child := by
  rw [list_eq found there walked.startsBlank_eq, walked.respelled_eq]
  exact List.map_congr_left fun name _ => stepTo_of_ne walked.text_ne.1 name

end Disk

end FpgaProject
