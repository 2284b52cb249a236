import FpgaProject.Disk.Access
import Mathlib.Tactic.SplitIfs

/-!
What the disk does not complain of.

That a path is empty is the complaint of absolute forms alone. Where the disk is asked, an empty
path is one that is not found; so neither writing a text nor making directories comes to that
complaint (`writeText_ne_emptyPath`, `makeDirectories_ne_emptyPath`).
-/

namespace FpgaProject

namespace Disk

variable (d : Disk)

/-- Looking a path up never comes to asking for an absolute form. -/
theorem textFault?_ne_emptyPath (p : Path) : textFault? p ≠ some .emptyPath := by
  unfold textFault?
  split_ifs <;> simp

theorem walk_ne_emptyPath (l : Location) (pieces : List String) :
    d.walk l pieces ≠ .error .emptyPath := by
  induction pieces generalizing l with
  | nil => simp [walk]
  | cons piece pieces ih =>
    unfold walk
    split
    · simp
    · simp
    · split_ifs
      · exact ih l
      · exact ih l.dropLast
      · simp
      · split
        · simp
        · exact ih (l ++ [piece])

theorem locateNew_ne_emptyPath (p : Path) : d.locateNew p ≠ .error .emptyPath := by
  unfold locateNew
  split
  · rename_i f found
    rintro ⟨⟩
    exact textFault?_ne_emptyPath p found
  · split
    · simp
    · cases led : d.walk (d.origin p) p.pieces.dropLast with
      | error f =>
        rintro ⟨⟩
        exact d.walk_ne_emptyPath _ _ led
      | ok l =>
        simp only [bind, Except.bind]
        split
        · split_ifs <;> simp
        · simp
        · simp

theorem writeText_ne_emptyPath (p : Path) (s : String) :
    (d.writeText p s).2 ≠ .error .emptyPath := by
  unfold writeText
  split
  · simp
  · split
    · simp
    · rename_i f _ found
      rintro ⟨⟩
      exact d.locateNew_ne_emptyPath p found
    · split <;> simp

theorem makeDirectory_ne_emptyPath (p : Path) : (d.makeDirectory p).2 ≠ .error .emptyPath := by
  unfold makeDirectory
  split
  · rename_i f found
    rintro ⟨⟩
    exact d.locateNew_ne_emptyPath p found
  · split <;> simp

theorem settle_ne_emptyPath {p : Path} {made : Disk × Except Fault Unit}
    (other : made.2 ≠ .error .emptyPath) : (settle p made).2 ≠ .error .emptyPath := by
  unfold settle
  split
  · split
    · simp
    · exact other
  · exact other

theorem makeDirectoriesUpTo_ne_emptyPath (fuel : Nat) (p : Path) :
    (d.makeDirectoriesUpTo fuel p).2 ≠ .error .emptyPath := by
  induction fuel generalizing d p with
  | zero => exact settle_ne_emptyPath (d.makeDirectory_ne_emptyPath p)
  | succ fuel ih =>
    unfold makeDirectoriesUpTo
    split
    · simp
    · split
      · split
        · simp
        · rename_i above _
          split
          · rename_i d' _
            exact settle_ne_emptyPath (d'.makeDirectory_ne_emptyPath p)
          · exact ih _ above
      · exact settle_ne_emptyPath (d.makeDirectory_ne_emptyPath p)

theorem makeDirectories_ne_emptyPath (p : Path) :
    (d.makeDirectories p).2 ≠ .error .emptyPath :=
  d.makeDirectoriesUpTo_ne_emptyPath _ p

end Disk

end FpgaProject
