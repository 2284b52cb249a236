import Mathlib.Data.List.Nodup
import FpgaProject.Disk.Listing
import FpgaProject.Proofs.Disk.Place
import FpgaProject.Proofs.Path.Steps

/-!
What the listing of a directory consists of.

The names in a directory are those of the entries directly below it (`mem_names_iff`), each once and
in the order of their code points, which is that of their bytes in UTF-8 (`pairwise_names`). The
paths that a listing gives are those names, each behind the path that the walk has come to, so their
last steps are the names again (`fileName?_list`).
-/

namespace FpgaProject

/-! ### The last step of a path to an entry -/

namespace Path

/-- The last step of a path to an entry gives the name of the entry. -/
theorem fileName?_child {name : String} (legal : IsName name) (named : Disk.Named name) (p : Path) :
    (p.child name).fileName? = some name := by
  obtain ⟨body, steps, -⟩ := steps_child legal.2 fun _ : p.text = "" => ⟨legal.1, named.1⟩
  have notUp : name.toList ≠ ['.', '.'] := fun e => named.2 (String.toList_injective e)
  rw [fileName?, steps, trimmed_concat (isIdle_name legal.1 named.1)]
  simp [notUp]

end Path

namespace Disk

variable {d : Disk}

/-! ### The names in a directory -/

/-- The name of an entry that stands directly in a directory. -/
def nameIn? (l m : Location) : Option String :=
  if m ≠ [] ∧ m.dropLast = l then m.getLast? else none

theorem nameIn?_eq_some_iff {l m : Location} {name : String} :
    nameIn? l m = some name ↔ m = l ++ [name] := by
  unfold nameIn?
  constructor
  · intro h
    split at h
    · rename_i below
      obtain ⟨front, rfl⟩ := List.getLast?_eq_some_iff.mp h
      rw [List.dropLast_concat] at below
      rw [below.2]
    · cases h
  · rintro rfl
    simp

theorem names_eq (d : Disk) (l : Location) :
    d.names l = ((d.entries.map Prod.fst).filterMap (nameIn? l)).mergeSort
      (fun a b => decide (a ≤ b)) := by
  rw [List.filterMap_map]
  rfl

theorem mem_names_iff {l : Location} {name : String} :
    name ∈ d.names l ↔ d.entryAt? (l ++ [name]) ≠ none := by
  have found : d.entryAt? (l ++ [name]) = d.entries.lookup (l ++ [name]) := by simp [entryAt?]
  simp only [names_eq, List.mem_mergeSort, List.mem_filterMap, nameIn?_eq_some_iff]
  rw [found, ne_eq, List.lookup_eq_none_iff]
  simp

/-- The names in a directory are different and come in order. -/
theorem pairwise_names (d : Disk) (l : Location) : (d.names l).Pairwise (· < ·) := by
  have sorted : (d.names l).Pairwise (· ≤ ·) := by
    have := @List.pairwise_mergeSort String (fun a b => decide (a ≤ b))
      (fun a b c => by simpa using String.le_trans) (fun a b => by simpa using String.le_total a b)
      ((d.entries.map Prod.fst).filterMap (nameIn? l))
    simpa [names_eq] using this
  have distinct : (d.names l).Nodup := by
    rw [names_eq, (List.mergeSort_perm _ _).nodup_iff]
    refine d.distinct.filterMap fun m m' name h h' => ?_
    rw [nameIn?_eq_some_iff.mp h, nameIn?_eq_some_iff.mp h']
  refine (sorted.and distinct).imp fun {a b} both => ?_
  rw [← String.not_le]
  exact fun ge => both.2 (String.le_antisymm both.1 ge)

/-! ### Listings -/

theorem fileName?_stepTo {name : String} (legal : Path.IsName name) (named : Named name)
    (at_ : Path) : (stepTo at_ name).fileName? = some name := by
  unfold stepTo
  split
  · simpa [Path.child, Path.join] using Path.fileName?_child legal named ⟨""⟩
  · exact Path.fileName?_child legal named at_

/-- Where the walk of a path starts, and the pieces that it takes. -/
def route (p : Path) : Path × List (List Char) :=
  if p.isAbsolute then (⟨"/"⟩, (Text.splitAt '/' p.chars).tail)
  else if p.text.isEmpty then (⟨"/"⟩, [])
  else (⟨"."⟩, Text.splitAt '/' p.chars)

/-- The path of a listing is walked, and the names are read where the walk ends. -/
theorem list_eq_match (d : Disk) (p : Path) (wanted : String → Bool) :
    d.list p wanted = match d.follow? (route p).1 (route p).2 with
      | none => []
      | some at_ =>
        match d.locate at_ with
        | .error _ => []
        | .ok l =>
          if d.entryAt? l = some .directory then ((d.names l).filter wanted).map (stepTo at_)
          else [] :=
  rfl

/-- A listing is empty, or its walk has come to a directory, whose names stand behind the path that
has been written. -/
theorem list_cases (d : Disk) (p : Path) (wanted : String → Bool) :
    d.list p wanted = [] ∨ ∃ at_ l, d.follow? (route p).1 (route p).2 = some at_ ∧
      d.locate at_ = .ok l ∧ d.entryAt? l = some .directory ∧
      d.list p wanted = ((d.names l).filter wanted).map (stepTo at_) := by
  rw [list_eq_match]
  cases d.follow? (route p).1 (route p).2 with
  | none => exact .inl rfl
  | some at_ =>
    cases found : d.locate at_ with
    | error f => exact .inl (by simp only [found])
    | ok l =>
      by_cases there : d.entryAt? l = some .directory
      · exact .inr ⟨at_, l, rfl, found, there, by simp only [found, there, if_true]⟩
      · exact .inl (by simp only [found, there, if_false])

/-- The paths of a listing have the names in the directory as their last steps, and those are
different and come in order. -/
theorem fileName?_list (sound : d.Sound) (p : Path) (wanted : String → Bool) :
    ∃ listed : List String, listed.Pairwise (· < ·) ∧
      (d.list p wanted).map Path.fileName? = listed.map some := by
  rcases d.list_cases p wanted with nothing | ⟨at_, l, -, -, -, all⟩
  · exact ⟨[], .nil, by rw [nothing]; rfl⟩
  · refine ⟨(d.names l).filter wanted, (d.pairwise_names l).sublist List.filter_sublist, ?_⟩
    rw [all, List.map_map]
    refine List.map_congr_left fun name member => ?_
    obtain ⟨e, there⟩ :=
      Option.ne_none_iff_exists'.mp (mem_names_iff.mp (List.mem_filter.mp member).1)
    obtain ⟨legal, named, -⟩ := sound.named _ _ _ there
    exact fileName?_stepTo legal named at_

end Disk

end FpgaProject
