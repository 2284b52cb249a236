import FpgaProject.Proofs.Disk.Making

/-!
What may become of a disk on which directories are made and files are written.

`Extends names` says that nothing was lost and that nothing was added or changed but directories
where there was nothing and files that have one of the names; it is kept from step to step
(`Extends.trans`). Making directories and writing a file are such steps, and both keep a disk sound
(`Sound.makeDirectories`, `Sound.writeText`).
-/

namespace FpgaProject

namespace Disk

variable {d d' d'' : Disk} {names : List String}

/-- The disk lost nothing, and what is new or other is a directory where nothing was, or a file that
has one of the names and stands where no directory was. -/
structure Extends (names : List String) (d d' : Disk) : Prop where
  cwd : d'.cwd = d.cwd
  changed : ∀ l, d'.entryAt? l = d.entryAt? l ∨
    (d.entryAt? l = none ∧ d'.entryAt? l = some .directory) ∨
    (d.entryAt? l ≠ some .directory ∧ (∃ name ∈ names, l.getLast? = some name) ∧
      ∃ contents x, d'.entryAt? l = some (.file contents x))

theorem Extends.refl (names : List String) (d : Disk) : d.Extends names d :=
  ⟨rfl, fun _ => .inl rfl⟩

theorem Extends.trans (first : Extends names d d') (second : Extends names d' d'') :
    Extends names d d'' := by
  refine ⟨second.cwd.trans first.cwd, fun l => ?_⟩
  rcases first.changed l with same | ⟨absent, made⟩ | ⟨free, named, contents, x, wrote⟩
  · rcases second.changed l with same' | ⟨absent', made'⟩ | ⟨free', rest⟩
    · exact .inl (same'.trans same)
    · exact .inr (.inl ⟨same ▸ absent', made'⟩)
    · exact .inr (.inr ⟨same ▸ free', rest⟩)
  · rcases second.changed l with same' | ⟨absent', -⟩ | ⟨free', -⟩
    · exact .inr (.inl ⟨absent, same'.trans made⟩)
    · simp [made] at absent'
    · exact absurd made free'
  · rcases second.changed l with same' | ⟨absent', -⟩ | ⟨-, rest⟩
    · exact .inr (.inr ⟨free, named, contents, x, same'.trans wrote⟩)
    · simp [wrote] at absent'
    · exact .inr (.inr ⟨free, rest⟩)

theorem Extends.mono {more : List String} (h : Extends names d d') (sub : names ⊆ more) :
    Extends more d d' := by
  refine ⟨h.cwd, fun l => (h.changed l).imp_right (Or.imp_right ?_)⟩
  rintro ⟨free, ⟨name, member, last⟩, file⟩
  exact ⟨free, ⟨name, sub member, last⟩, file⟩

/-- A disk that is extended loses neither a directory nor a file. -/
theorem Extends.kind {l : Location} {e : Entry} (h : Extends names d d')
    (there : d.entryAt? l = some e) :
    ∃ e', d'.entryAt? l = some e' ∧ e'.isDirectory = e.isDirectory := by
  rcases h.changed l with same | ⟨absent, -⟩ | ⟨free, -, contents, x, wrote⟩
  · exact ⟨e, same.trans there, rfl⟩
  · simp [there] at absent
  · refine ⟨_, wrote, ?_⟩
    cases e with
    | directory => exact absurd there free
    | file => rfl

theorem Extends.keeps (h : Extends names d d') : d.Keeps d' := by
  refine ⟨h.cwd, fun l there => ?_, fun l there => ?_⟩
  · obtain ⟨e, there', kind⟩ := h.kind there
    cases e with
    | directory => exact there'
    | file => simp [Entry.isDirectory] at kind
  · obtain ⟨e, he⟩ := Option.ne_none_iff_exists'.mp there
    obtain ⟨e', there', -⟩ := h.kind he
    simp [there']

theorem Grows.extends (grows : d.Grows d') : Extends names d d' :=
  ⟨grows.cwd, fun l => (grows.added l).imp_right .inl⟩

/-- Writing a file below a path touches no file of another name. -/
theorem extends_writeText (d : Disk) (folder : Path) (name : String) (legal : Path.IsName name)
    (s : String) : d.Extends [name] (d.writeText (folder.child name) s).1 := by
  rcases d.writeText_child folder name legal s with ⟨f, failed⟩ | ⟨x, wrote, -, keeps, -⟩
  · rw [failed]
    exact .refl _ d
  · rw [wrote]
    refine ⟨rfl, fun l => ?_⟩
    by_cases here : l = d.place folder ++ [name]
    · subst here
      have put : (d.put (d.place folder ++ [name]) (.file (.text s) x)).entryAt?
          (d.place folder ++ [name]) = some (.file (.text s) x) := by
        rw [entryAt?_put d (by simp), if_pos rfl]
      refine .inr (.inr ⟨fun there => ?_, ⟨name, by simp⟩, .text s, x, put⟩)
      simp [keeps.directories _ there] at put
    · rw [entryAt?_put d (by simp), if_neg here]
      exact .inl rfl

/-! ### Sound disks -/

/-- A disk stays sound if an entry is put in a new place, or in place of a file. -/
theorem Sound.put (sound : d.Sound) {p : Path} {l : Location} {name : String}
    (new : d.locateNew p = .ok (l, name)) (free : d.entryAt? (l ++ [name]) ≠ some .directory)
    (e : Entry) : (d.put (l ++ [name]) e).Sound := by
  obtain ⟨-, pieces, -, above, named, short⟩ := locateNew_eq_ok new
  have elsewhere : ∀ {m}, d.entryAt? m = some .directory →
      (d.put (l ++ [name]) e).entryAt? m = some .directory := by
    intro m there
    rw [entryAt?_put d (by simp), if_neg]
    · exact there
    · rintro rfl
      exact free there
  have legal : Path.IsName name := Path.isName_of_mem_pieces (p := p) (by rw [pieces]; simp)
  refine ⟨fun m n e' there => ?_, fun m n e' there => ?_, elsewhere sound.cwdDirectory⟩
  · rw [entryAt?_put d (by simp)] at there
    split at there
    · rename_i here
      obtain ⟨-, same⟩ := List.append_inj' here rfl
      obtain rfl : n = name := by simpa using same
      exact ⟨legal, named, short⟩
    · exact sound.named m n e' there
  · rw [entryAt?_put d (by simp)] at there
    split at there
    · rename_i here
      obtain ⟨rfl, -⟩ := List.append_inj' here rfl
      exact elsewhere above
    · exact elsewhere (sound.inDirectory m n e' there)

theorem Sound.makeDirectory (sound : d.Sound) (p : Path) : (d.makeDirectory p).1.Sound := by
  unfold Disk.makeDirectory
  split
  · exact sound
  · rename_i l name new
    split
    · exact sound
    · rename_i absent
      exact sound.put new (by simp [absent]) .directory

theorem Sound.makeDirectories (sound : d.Sound) (p : Path) : (d.makeDirectories p).1.Sound :=
  makeDirectories_keeps (fun _ p' kept => kept.makeDirectory p') sound p

theorem Sound.writeText (sound : d.Sound) (p : Path) (s : String) : (d.writeText p s).1.Sound := by
  rcases d.writeText_cases p s with ⟨f, failed⟩ | ⟨l, name, x, new, -, free, wrote⟩
  · rw [failed]
    exact sound
  · rw [wrote]
    exact sound.put new free _

end Disk

end FpgaProject
