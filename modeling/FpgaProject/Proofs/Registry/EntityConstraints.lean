import FpgaProject.Project
import FpgaProject.Proofs.Registry.Sources
import FpgaProject.Proofs.Script.Starting

/-!
The constraints for entities that a project takes from its modules.

They stand in `entity_constraints` in the directory of a module, each in a file that ends in `.tcl`
and is named after its entity (`knownConstraints`). A project reads them once, when it is assembled,
and its script of creation names them behind all other constraints, whatever the disk holds by then.
Main statement: `entity_constraints_read`. As with the sources of a module, a file is left out
without a word if its path is too long to be looked up (`left_out_of_constraints`).
-/

namespace FpgaProject

namespace Module

/-- The directory in a module that holds its constraints for entities. -/
def constraintDirectory : String := "entity_constraints"

/-- Whether a name is that of a constraint: it ends in `.tcl`. -/
def IsConstraintName (name : String) : Prop :=
  ".tcl".toList <:+ name.toList

/-- The entity that a constraint is named after: what stands before the ending, or the whole name if
nothing does. -/
def entityOf (name : String) : String :=
  if name = ".tcl" then name else String.ofList (name.toList.take (name.toList.length - 4))

/-- A constraint stands directly in a directory. -/
structure ConstraintAt (d : Disk) (l : Location) (name : String) : Prop where
  named : IsConstraintName name
  file : ∃ contents executable, d.entryAt? (l ++ [name]) = some (.file contents executable)
  regular : d.isPipeAt (l ++ [name]) = false

/-- The constraint in the file with a name in a directory. -/
def constraintIn (dir : Path) (name : String) : Constraint :=
  ⟨dir.child name, some (entityOf name), .all⟩

/-- Constraints are those in the files with the names that are wanted, each once and in order. -/
def ListsConstraints (dir : Path) (wanted : String → Prop) (cs : List Constraint) : Prop :=
  ∃ names : List String, cs = names.map (constraintIn dir) ∧ names.Pairwise (· < ·) ∧
    ∀ name, name ∈ names ↔ wanted name

/-- The constraints for entities of a module as they are. -/
structure KnownConstraints (d : Disk) (m : Module) : Prop where
  /-- There are none if the module is not there. -/
  missing : (∀ l, d.locate m.path ≠ .ok l) → m.entityConstraints d = []
  /-- They are those in its directory for constraints, but for paths that cannot be looked up. -/
  listed : ∀ l, d.locate m.path = .ok l → ListsConstraints (m.path.child constraintDirectory)
    (fun name => ConstraintAt d (l ++ [constraintDirectory]) name ∧
      Disk.textFault? ((m.path.child constraintDirectory).child name) = none)
    (m.entityConstraints d)
  /-- Nothing is missing exactly if no path is too long. -/
  whole : ∀ l, d.locate m.path = .ok l →
    (ListsConstraints (m.path.child constraintDirectory)
        (ConstraintAt d (l ++ [constraintDirectory])) (m.entityConstraints d) ↔
      ∀ name, ConstraintAt d (l ++ [constraintDirectory]) name →
        Disk.textFault? ((m.path.child constraintDirectory).child name) = none)

variable {d : Disk} {dir : Path} {l : Location} {name : String}

theorem endsWith_iff : name.endsWith ".tcl" = true ↔ IsConstraintName name := by
  rw [String.endsWith_eq_endsWith_toSlice, String.Slice.endsWith_string_iff, String.copy_toSlice]
  rfl

/-- The stem of the path of a constraint is the name of its entity. -/
theorem stem?_child (legal : Path.IsName name) (named : Disk.Named name)
    (ending : IsConstraintName name) (dir : Path) :
    (dir.child name).stem? = some (entityOf name) := by
  obtain ⟨front, whole⟩ := ending
  have split : name.toList = front ++ '.' :: ['t', 'c', 'l'] := whole.symm
  rw [Path.stem?, Path.fileName?_child legal named, Option.map_some, split,
    Path.cutAtLastDot_append (by decide)]
  congr 1
  unfold entityOf
  by_cases empty : front = []
  · have alone : name = ".tcl" := by
      apply String.toList_injective
      rw [split, empty]
      rfl
    rw [if_pos empty, if_pos alone, alone]
  · have more : name ≠ ".tcl" := by
      rintro rfl
      have lengths := congrArg List.length split
      rw [List.length_append] at lengths
      exact empty (List.length_eq_zero_iff.mp (by simpa using lengths))
    rw [if_neg empty, if_neg more, split]
    simp

/-- A name in a directory passes the listing exactly if it is that of a constraint there whose path
can be looked up. -/
theorem passes_constraint_iff (sound : d.Sound) (found : d.locate dir = .ok l) :
    (d.entryAt? (l ++ [name]) ≠ none ∧ name.endsWith ".tcl" = true ∧
        d.isFile (Disk.stepTo dir name) = true) ↔
      ConstraintAt d l name ∧ Disk.textFault? (Disk.stepTo dir name) = none := by
  rw [endsWith_iff]
  constructor
  · rintro ⟨present, ending, seen⟩
    obtain ⟨e, stands⟩ := Option.ne_none_iff_exists'.mp present
    obtain ⟨legal, named, -⟩ := sound.named _ _ _ stands
    obtain ⟨text, file, regular⟩ := (isFile_stepTo_iff sound found legal named).mp seen
    exact ⟨⟨ending, file, regular⟩, text⟩
  · rintro ⟨known, text⟩
    obtain ⟨contents, executable, stands⟩ := known.file
    obtain ⟨legal, named, -⟩ := sound.named _ _ _ stands
    have seen := (isFile_stepTo_iff sound found legal named).mpr ⟨text, known.file, known.regular⟩
    exact ⟨by simp [stands], known.named, seen⟩

/-- The paths of constraints, with what each says, from the paths of their files. -/
theorem ListsConstraints.of_lists (sound : d.Sound) {wanted : String → Prop} {files : List Path}
    (lists : Lists dir (fun name => ConstraintAt d l name ∧ wanted name) files) :
    ListsConstraints dir (fun name => ConstraintAt d l name ∧ wanted name)
      (files.map fun p => .ofEntityFile p .all) := by
  obtain ⟨names, rfl, ordered, listed⟩ := lists
  refine ⟨names, ?_, ordered, listed⟩
  rw [List.map_map]
  refine List.map_congr_left fun name member => ?_
  obtain ⟨known, -⟩ := (listed name).mp member
  obtain ⟨contents, executable, stands⟩ := known.file
  obtain ⟨legal, named, -⟩ := sound.named _ _ _ stands
  rw [Function.comp_apply, Constraint.ofEntityFile, stem?_child legal named known.named]
  rfl

theorem ListsConstraints.lists {wanted : String → Prop} {cs : List Constraint}
    (lists : ListsConstraints dir wanted cs) : Lists dir wanted (cs.map Constraint.file) := by
  obtain ⟨names, rfl, ordered, listed⟩ := lists
  refine ⟨names, ?_, ordered, listed⟩
  rw [List.map_map]
  rfl

/-- All constraints are there exactly if all can be looked up. -/
theorem listsConstraints_all_iff {wanted : String → Prop} {cs : List Constraint}
    (lists : ListsConstraints dir
      (fun name => wanted name ∧ Disk.textFault? (dir.child name) = none) cs) :
    ListsConstraints dir wanted cs ↔
      ∀ name, wanted name → Disk.textFault? (dir.child name) = none := by
  constructor
  · intro all
    exact (lists_all_iff lists.lists).mp all.lists
  · intro fits
    obtain ⟨names, same, ordered, listed⟩ := lists
    refine ⟨names, same, ordered, fun name => (listed name).trans ⟨And.left, fun known => ?_⟩⟩
    exact ⟨known, fits name known⟩

/-- The constraints of a module under a path that a walk has written. -/
theorem knownConstraints (sound : d.Sound) {m : Module} (walked : m.path.Walked) :
    KnownConstraints d m := by
  have legal : Path.IsName constraintDirectory := by decide
  have named : Disk.Named constraintDirectory := by decide
  obtain ⟨notDot, given⟩ := walked.text_ne
  have below := walked.child legal.2
  have listed : ∀ l, d.locate m.path = .ok l → ListsConstraints (m.path.child constraintDirectory)
      (fun name => ConstraintAt d (l ++ [constraintDirectory]) name ∧
        Disk.textFault? ((m.path.child constraintDirectory).child name) = none)
      (m.entityConstraints d) := by
    intro l found
    have place : d.place (m.path.child constraintDirectory) = l ++ [constraintDirectory] := by
      rw [Disk.place_child legal, ← Disk.locate_eq_ok found, Disk.step_name named]
    apply ListsConstraints.of_lists sound
    apply lists_of_names sound below place
    · intro text there
      rw [← Disk.stepTo_of_ne notDot] at text ⊢
      exact (Disk.locate_stepTo_named_iff sound found legal named text).mpr ⟨rfl, by simp [there]⟩
    · intro name known
      obtain ⟨contents, executable, stands⟩ := known.file
      rw [stands]
      exact Option.some_ne_none _
    · exact exists_names_listed sound _ fun l found name => passes_constraint_iff sound found
  refine ⟨fun nowhere => ?_, listed, fun l found => listsConstraints_all_iff (listed l found)⟩
  -- What leads to the directory for constraints leads to that of the module first.
  have closed : ∀ k, ¬ d.Opens (m.path.child constraintDirectory) k := by
    intro k opens
    obtain ⟨found, -⟩ := (Disk.opens_iff_of_walked below).mp opens
    have further : m.path.child constraintDirectory =
        Disk.further m.path constraintDirectory.toList := by
      rw [Disk.further, String.ofList_toList, Disk.stepTo_of_ne notDot]
    rw [further] at found
    obtain ⟨l, above, -⟩ := Disk.locate_of_further notDot given legal.2 found
    exact nowhere l above
  have nothing := Disk.list_of_not_opens closed fun n => n.endsWith ".tcl"
  rw [entityConstraints]
  rw [constraintDirectory] at nothing
  rw [nothing]
  rfl

end Module

namespace Registry

/-- What a project takes from the modules that a discovery gave, and what becomes of it. Each module
stands in the directory of its candidate, unless a factory takes another one; its constraints are
then, at any time, one for each file that ends in `.tcl` directly in its `entity_constraints`, in
the order of the names, all of them exactly if all can be looked up. The project has the constraints
of its modules at the time at which it is assembled, in the order of the modules. Each script of
creation, at any later time, has a line for each constraint of the project, in order: those of the
user, the one on clock crossings, and those of the modules. Of the disk, only the working directory
counts for them. The text of the script has the same lines, if no text in it holds a line feed. -/
theorem entity_constraints_read {d₀ : Disk} (sound : d₀.Sound) (made : List (String × Factory))
    (librarySuffix : Bool) (roots : List Path) (names : Option (List String)) {ms : List Module}
    (found : ((ofRegistrations made librarySuffix).discover d₀ roots names).result = .ok ms) :
    List.Forall₂ (fun c m =>
        (lastFor? made c.name = none → m.path = c.dir) ∧
        (m.path = c.dir → d₀.isDirectory m.path = true ∧
          ∀ d : Disk, d.Sound → Module.KnownConstraints d m))
      (candidates d₀ roots names) ms ∧
    ∀ (d : Disk) (name part : String) (options : ProjectOptions), ∃ q,
      (Project.assemble d name ms part options).result = .ok q ∧
      q.design.entityConstraints = ms.flatMap (·.entityConstraints d) ∧
      ∀ (d' : Disk) (folder : Path),
        (q.design.HasEmptyPath ∧ q.design.creation d' folder = .error (.fault .emptyPath)) ∨
        ∃ commands, q.design.creation d' folder = .ok commands ∧
          List.Forall₂ (fun c line => Design.readLine? d'.cwdPath c = some line)
            (options.constraints ++
              .ofFile (options.clockCrossings.getD (folder.child crossingsFile)) ::
                ms.flatMap (·.entityConstraints d))
            (Script.linesStarting "read_xdc " commands) ∧
          (Script.linesStarting "read_xdc " commands).length =
            options.constraints.length + 1 + (ms.flatMap (·.entityConstraints d)).length ∧
          ((∀ c ∈ commands, ∀ t ∈ c.operands, Script.OneLine t) →
            (Text.splitAt '\n' (Script.text commands).toList).filter
                (Script.startsWith "read_xdc ") =
              (Script.linesStarting "read_xdc " commands).map String.toList) := by
  constructor
  · rw [result_discover, mapM_eq_ok_iff] at found
    refine List.forall₂_iff_zip.mpr ⟨found.length_eq, fun {c m} pair => ⟨fun last => ?_, ?_⟩⟩
    · exact (result_build_eq_ok_iff.mp ((List.forall₂_iff_zip.mp found).2 pair)).path_eq last
    · intro same
      obtain ⟨walked, directory⟩ := walked_of_mem_candidates sound (List.of_mem_zip pair).1
      rw [← same] at walked directory
      exact ⟨directory, fun d sound => Module.knownConstraints sound walked⟩
  · intro d name part options
    refine ⟨_, rfl, rfl, fun d' folder => ?_⟩
    generalize isDesign : Project.design _ = x
    cases made : x.creation d' folder with
    | error e =>
      obtain ⟨empty, rfl⟩ := Design.creation_eq_error_iff.mp made
      exact .inl ⟨empty, rfl⟩
    | ok commands =>
      have lines := Design.forall₂_readLine? made
      subst isDesign
      refine .inr ⟨commands, rfl, lines, ?_, Script.filter_splitAt_text (by decide)⟩
      refine lines.length_eq.symm.trans ?_
      simp [Design.constraintsFor, Nat.add_assoc, Nat.add_comm]

/-! ### A constraint that is left out -/

/-- The name of a constraint, of 34 bytes. -/
def farConstraint : String := "aaaaaaaaaaaaaaaaaaaaaaaaaaaaaa.tcl"

/-- A disk with one module, which has one constraint for an entity. -/
def constrained : Disk where
  entries := [([longName], .directory), ([longName, "apa"], .directory),
    ([longName, "apa", "entity_constraints"], .directory),
    ([longName, "apa", "entity_constraints", farConstraint], .file (.text "") false)]
  distinct := by simp
  cwd := []

theorem entryAt?_constrained :
    constrained.entryAt? [longName] = some .directory ∧
    constrained.entryAt? [longName, "apa"] = some .directory ∧
    constrained.entryAt? [longName, "apa", "entity_constraints"] = some .directory ∧
    constrained.entryAt? [longName, "apa", "entity_constraints", farConstraint] =
      some (.file (.text "") false) := by
  simp [Disk.entryAt?, constrained, List.lookup_cons]

theorem sound_constrained : constrained.Sound := by
  have long : longName.utf8ByteSize ≤ Disk.nameLimit := by
    rw [utf8ByteSize_longName]
    decide
  obtain ⟨above, directory, inside, -⟩ := entryAt?_constrained
  refine .of_entries rfl ?_
  have entries : constrained.entries = [([longName], .directory), ([longName, "apa"], .directory),
    ([longName, "apa", "entity_constraints"], .directory),
    ([longName, "apa", "entity_constraints", farConstraint], .file (.text "") false)] := rfl
  simp only [entries, List.forall_mem_cons]
  refine ⟨?_, ?_, ?_, ?_, by simp⟩
  · rintro name last
    obtain rfl : longName = name := by simpa using last
    exact ⟨⟨isName_longName.1, isName_longName.2, long⟩, rfl⟩
  · rintro name last
    obtain rfl : "apa" = name := by simpa using last
    exact ⟨by decide, above⟩
  · rintro name last
    obtain rfl : "entity_constraints" = name := by simpa using last
    exact ⟨by decide, directory⟩
  · rintro name last
    obtain rfl : farConstraint = name := by simpa using last
    exact ⟨by decide, inside⟩

theorem holdsApa_constrained : HoldsApa constrained where
  sound := sound_constrained
  atRoot := rfl
  above := entryAt?_constrained.1
  directory := entryAt?_constrained.2.1
  alone := by simp [Disk.names, constrained]
  plain := by simp [Disk.entryAt?, constrained]

theorem constraintAt_farConstraint :
    Module.ConstraintAt constrained [longName, "apa", "entity_constraints"] farConstraint :=
  ⟨⟨List.replicate 30 'a', by decide⟩, ⟨.text "", false, entryAt?_constrained.2.2.2⟩, rfl⟩

theorem eq_of_constraintAt {name : String}
    (known : Module.ConstraintAt constrained [longName, "apa", "entity_constraints"] name) :
    name = farConstraint := by
  obtain ⟨contents, executable, stands⟩ := known.file
  have listed := Disk.mem_entries stands
  obtain ⟨rfl, -⟩ : name = farConstraint ∧ _ := by simpa [constrained] using listed
  rfl

def apartConstraint (n : Nat) : Path :=
  ((apart n).child Module.constraintDirectory).child farConstraint

theorem utf8ByteSize_apartConstraint (n : Nat) :
    (apartConstraint n).text.utf8ByteSize = 254 * n + 308 := by
  have sizes : "apa".utf8ByteSize = 3 ∧ Module.constraintDirectory.utf8ByteSize = 18 ∧
      farConstraint.utf8ByteSize = 34 := by decide +kernel
  have legal : Path.IsName "apa" ∧ Path.IsName Module.constraintDirectory := by decide
  have walked : (apart n).Walked := (walked_detour n).child legal.1.2
  have below := walked.child legal.2.2
  rw [apartConstraint, utf8ByteSize_child below.text_ne.2 (Path.endsInSlash_child legal.2 _)
      (by decide),
    utf8ByteSize_child walked.text_ne.2 (Path.endsInSlash_child legal.1 _) legal.2, apart,
    utf8ByteSize_child (walked_detour n).text_ne.2 (open_detour n) legal.1, utf8ByteSize_detour,
    sizes.1, sizes.2.1, sizes.2.2]

theorem textFault?_apartConstraint : Disk.textFault? (apartConstraint 0) = none := by
  have names : '\x00' ∉ "apa".toList ∧ '\x00' ∉ Module.constraintDirectory.toList ∧
      '\x00' ∉ farConstraint.toList := by decide
  refine Disk.textFault?_eq_none_iff.mpr ⟨fun nul => ?_, Path.text_child_ne (by decide) _, ?_⟩
  · rcases Path.mem_chars_child nul with nul | nul | nul
    · rcases Path.mem_chars_child nul with nul | nul | nul
      · rcases Path.mem_chars_child nul with nul | nul | nul
        · exact noNul_detour 0 nul
        · exact names.1 nul
        · exact absurd nul (by decide)
      · exact names.2.1 nul
      · exact absurd nul (by decide)
    · exact names.2.2 nul
    · exact absurd nul (by decide)
  · rw [utf8ByteSize_apartConstraint]
    decide

/-- Without detours, the constraint of the module is read into a project: its script has one line
for it besides that of the constraint on clock crossings, also where the disk is empty by then. -/
theorem constraints_of_apart :
    constrained.Sound ∧
      ((ofRegistrations [] false).discover constrained [detour 0] none).result =
        .ok [.plain (apart 0) false] ∧
      ∃ q, (Project.assemble constrained "p" [.plain (apart 0) false] "part" {}).result = .ok q ∧
        q.design.entityConstraints =
          [⟨apartConstraint 0, some "aaaaaaaaaaaaaaaaaaaaaaaaaaaaaa", .all⟩] ∧
        ∃ commands, q.design.creation (.empty []) ⟨"/out"⟩ = .ok commands ∧
          (Script.linesStarting "read_xdc " commands).length = 2 := by
  have holds := holdsApa_constrained
  have found := holds.discover_eq (Nat.zero_le 15)
  have one := holds.candidates_eq (Nat.zero_le 15)
  obtain ⟨modules, projects⟩ := entity_constraints_read holds.sound [] false [detour 0] none found
  rw [one] at modules
  obtain ⟨-, known⟩ := (List.forall₂_cons.mp modules).1.2 rfl
  have constraints : (Module.plain (apart 0) false).entityConstraints constrained =
      [⟨apartConstraint 0, some "aaaaaaaaaaaaaaaaaaaaaaaaaaaaaa", .all⟩] := by
    obtain ⟨names, same, ordered, listed⟩ := (known constrained holds.sound).listed _
      (holds.locate_apart (Nat.zero_le 15))
    have single : names = [farConstraint] := by
      refine ordered.eq_of_mem_iff (List.pairwise_singleton _ _) fun name => ?_
      rw [listed, List.mem_singleton]
      constructor
      · rintro ⟨at_, -⟩
        exact eq_of_constraintAt at_
      · rintro rfl
        exact ⟨constraintAt_farConstraint, textFault?_apartConstraint⟩
    have entity : Module.entityOf farConstraint = "aaaaaaaaaaaaaaaaaaaaaaaaaaaaaa" := by
      decide +kernel
    rw [same, single, ← entity]
    rfl
  obtain ⟨q, assembled, taken, scripts⟩ := projects constrained "p" "part" {}
  refine ⟨holds.sound, found, q, assembled, by simpa [constraints] using taken, ?_⟩
  rcases scripts (.empty []) ⟨"/out"⟩ with ⟨empty, -⟩ | ⟨commands, scripted, -, count, -⟩
  · obtain rfl := Except.ok.inj assembled
    rcases empty with ⟨file, given, -⟩ | ⟨file, given, -⟩ | ⟨c, member, blank⟩
    · cases given
    · cases given
    · obtain rfl : c = ⟨apartConstraint 0, _, _⟩ := by simpa [constraints] using member
      exact absurd blank (Path.text_child_ne (by decide) _)
  · exact ⟨commands, scripted, by simpa [constraints] using count⟩

/-- With fifteen detours the path of the constraint has 4118 bytes, and it is left out. -/
theorem left_out_of_constraints :
    constrained.Sound ∧
      ((ofRegistrations [] false).discover constrained [detour 15] none).result =
        .ok [.plain (apart 15) false] ∧
      constrained.locate (apart 15) = .ok [longName, "apa"] ∧
      Module.ConstraintAt constrained [longName, "apa", "entity_constraints"] farConstraint ∧
      ¬ Module.ListsConstraints ((apart 15).child "entity_constraints")
        (Module.ConstraintAt constrained [longName, "apa", "entity_constraints"])
        ((Module.plain (apart 15) false).entityConstraints constrained) := by
  have holds := holdsApa_constrained
  have found := holds.locate_apart (Nat.le_refl 15)
  have walked : (apart 15).Walked := (walked_detour 15).child (by decide)
  have known := Module.knownConstraints (m := .plain (apart 15) false) holds.sound walked
  refine ⟨holds.sound, holds.discover_eq (Nat.le_refl 15), found, constraintAt_farConstraint, ?_⟩
  intro lists
  have text := (known.whole _ found).mp lists farConstraint constraintAt_farConstraint
  have short : (apartConstraint 15).text.utf8ByteSize < Disk.pathLimit :=
    (Disk.textFault?_eq_none_iff.mp text).2.2
  rw [utf8ByteSize_apartConstraint] at short
  exact absurd short (by decide)

end Registry

end FpgaProject
