import FpgaProject.Proofs.Registry.Sources
import FpgaProject.Proofs.Script.Account

/-!
What the script that makes a project depends on.

All that goes into the script from a module are its library and its files for synthesis, and modules
without such files leave no trace (`account?_eq_bind`). So of the disk it is only the source files
directly in the directories of the modules that count, and their names at that. Main statement:
`creation_follows_sources`.
-/

namespace FpgaProject

namespace Module

variable {d : Disk} {dir : Path} {name : String}

/-- Under a path that a walk has written, a source file is held if it stands directly in the
directory that is found there. -/
theorem holdsSource_iff_of_walked (sound : d.Sound) (walked : dir.Walked) :
    HoldsSource d dir name ↔ ∃ l, d.locate dir = .ok l ∧ SourceAt d l name := by
  constructor
  · rintro ⟨l, opens, source⟩
    exact ⟨l, ((Disk.opens_iff_of_walked walked).mp opens).1, source⟩
  · rintro ⟨l, found, source⟩
    obtain ⟨contents, executable, stands⟩ := source.file
    have there := sound.inDirectory _ _ _ stands
    exact ⟨l, (Disk.opens_iff_of_walked walked).mpr ⟨found, there⟩, source⟩

/-- If the path does not lead up anywhere, that is the directory at its place. -/
theorem holdsSource_iff_of_straight (sound : d.Sound) (walked : dir.Walked)
    (text : Disk.textFault? dir = none) (straight : ".." ∉ dir.pieces) :
    HoldsSource d dir name ↔ SourceAt d (d.place dir) name := by
  rw [holdsSource_iff_of_walked sound walked]
  constructor
  · rintro ⟨l, found, source⟩
    rwa [← Disk.locate_eq_ok found]
  · intro source
    obtain ⟨contents, executable, stands⟩ := source.file
    have there := sound.inDirectory _ _ _ stands
    exact ⟨_, Disk.locate_of_straight sound text straight there, source⟩

/-- On each disk, a path holds the source files directly in the directory that it leads to. Without
`..` in the path, the disk does not matter for where that is. -/
structure HoldsDirectly (dir : Path) : Prop where
  found : ∀ d : Disk, d.Sound → ∀ name,
    HoldsSource d dir name ↔ ∃ l, d.locate dir = .ok l ∧ SourceAt d l name
  straight : ".." ∉ dir.pieces → ∀ d : Disk, d.Sound → ∀ name,
    HoldsSource d dir name ↔ SourceAt d (d.place dir) name

end Module

namespace Registry

theorem holdsDirectly_of_mem_candidates {d : Disk} (sound : d.Sound) {roots : List Path}
    {names : Option (List String)} {c : Candidate} (member : c ∈ candidates d roots names) :
    Module.HoldsDirectly c.dir := by
  obtain ⟨walked, directory⟩ := walked_of_mem_candidates sound member
  have text := Disk.textFault?_of_locate (Disk.locate_of_isDirectory directory).1
  exact ⟨fun _ sound _ => Module.holdsSource_iff_of_walked sound walked,
    fun straight _ sound _ => Module.holdsSource_iff_of_straight sound walked text straight⟩

end Registry

namespace Design

open Script

variable {d d' : Disk} {x : Design} {m : Module}

/-- Of the disk, only the working directory counts for the absolute form of a path. -/
theorem tclText?_congr (here : d'.cwdPath = d.cwdPath) : tclText? d' = tclText? d := by
  unfold tclText?
  rw [here]

/-- A module is told without files exactly if it has no files for synthesis. -/
theorem sources_eq_nil_iff {s : String × List String} (told : sourceAccount? d m = some s) :
    s.2 = [] ↔ m.synthesisFiles d = [] := by
  obtain ⟨files, all, rfl⟩ := Option.map_eq_some_iff.mp told
  have lengths := congrArg List.length (map_eq_map_some_of_mapM all)
  simp only [List.length_map] at lengths
  rw [← List.length_eq_zero_iff, ← List.length_eq_zero_iff, lengths]

/-- What is told of modules, without those of which no file is told, is what is told of the modules
that have files for synthesis. -/
theorem filter_mapM_sourceAccount? (d : Disk) (ms : List Module) :
    (ms.mapM (sourceAccount? d)).map (List.filter fun s => s.2 ≠ []) =
      (ms.filter fun m => m.synthesisFiles d ≠ []).mapM (sourceAccount? d) := by
  induction ms with
  | nil => rfl
  | cons m ms ih =>
    obtain ⟨s, told⟩ := Option.ne_none_iff_exists'.mp (sourceAccount?_ne_none d m)
    have same := sources_eq_nil_iff told
    by_cases idle : m.synthesisFiles d = []
    · rw [List.filter_cons_of_neg (by simpa using idle), ← ih, List.mapM_cons, told]
      cases ms.mapM (sourceAccount? d) <;> simp [same.mpr idle]
    · rw [List.filter_cons_of_pos (by simpa using idle), List.mapM_cons, List.mapM_cons, ← ih, told]
      cases ms.mapM (sourceAccount? d) <;> simp [mt same.mp idle]

/-- An account in which the modules without files for synthesis are left out from the start. -/
theorem account?_eq_bind (x : Design) (d : Disk) (folder : Path) :
    x.account? d folder = (do
      let sources ← (x.modules.filter fun m => m.synthesisFiles d ≠ []).mapM (sourceAccount? d)
      let blockDesign ← x.blockDesign.mapM (tclText? d)
      let constraints ← (x.constraintsFor folder).mapM (constraintAccount? d)
      some {
        name := x.name
        folder := folder.tclText
        part := x.part
        top := x.top
        sources := sources
        blockDesign := blockDesign
        generics := x.generics.bindings.map fun b => (b.1, b.2.rendered)
        constraints := constraints }) := by
  rw [← filter_mapM_sourceAccount?]
  unfold account?
  cases x.modules.mapM (sourceAccount? d) <;> rfl

/-- The script of creation is the same for the same files for synthesis of each module. -/
theorem creation_congr (here : d'.cwdPath = d.cwdPath) (folder : Path)
    (same : ∀ m ∈ x.modules, m.synthesisFiles d' = m.synthesisFiles d) :
    x.creation d' folder = x.creation d folder := by
  have sources : x.modules.mapM (sourceAccount? d') = x.modules.mapM (sourceAccount? d) := by
    refine mapM_congr fun m member => ?_
    rw [sourceAccount?, same m member, tclText?_congr here, sourceAccount?]
  have constraints : constraintAccount? d' = constraintAccount? d := by
    unfold constraintAccount?
    rw [tclText?_congr here]
  rw [creation_eq_commands, creation_eq_commands, account?, sources, tclText?_congr here, constraints,
    account?]

/-- The script of creation is the same for the same modules with files for synthesis, whatever other
modules stand between them. -/
theorem creation_of_filter_eq {ms : List Module} (folder : Path)
    (same : (ms.filter fun m => m.synthesisFiles d ≠ []) =
      x.modules.filter fun m => m.synthesisFiles d ≠ []) :
    { x with modules := ms }.creation d folder = x.creation d folder := by
  rw [creation_eq_commands, creation_eq_commands, account?_eq_bind, account?_eq_bind x, same]
  rfl

/-- The script of creation is the same on all disks on which the modules hold the same source files,
if the working directory is the same. Modules without files for synthesis can be left out or put in
anywhere. What the modules of a discovery hold are the source files directly in their directories, if
no factory gives them another path than that of the candidate. -/
theorem creation_follows_sources (x : Design) (folder : Path) :
    (∀ d d' : Disk, d.Sound → d'.Sound → d'.cwdPath = d.cwdPath →
      (∀ m ∈ x.modules, ∀ name,
        Module.HoldsSource d' m.path name ↔ Module.HoldsSource d m.path name) →
      x.creation d' folder = x.creation d folder) ∧
    (∀ d : Disk, { x with modules := x.modules.filter fun m => m.synthesisFiles d ≠ [] }.creation d
      folder = x.creation d folder) ∧
    (∀ (d : Disk) (before idle after : List Module), x.modules = before ++ after →
      (∀ m ∈ idle, m.synthesisFiles d = []) →
      { x with modules := before ++ idle ++ after }.creation d folder = x.creation d folder) ∧
    (∀ (made : List (String × Factory)) (librarySuffix : Bool) (d : Disk) (roots : List Path)
      (names : Option (List String)), d.Sound →
      ((Registry.ofRegistrations made librarySuffix).discover d roots names).result =
        .ok x.modules →
      List.Forall₂ (fun c m =>
          (Registry.lastFor? made c.name = none → m.path = c.dir) ∧
          (m.path = c.dir → Module.HoldsDirectly m.path))
        (Registry.candidates d roots names) x.modules) := by
  refine ⟨fun d d' sound sound' here same => ?disks, fun d => ?deletion,
    fun d before idle after split each => ?insertion,
    fun made librarySuffix d roots names sound found => ?discovered⟩
  case disks =>
    refine creation_congr here folder fun m member => ?_
    exact Module.sourcesIn_congr sound' sound (same m member)
  case deletion =>
    exact creation_of_filter_eq folder (by simp)
  case insertion =>
    have none_ : (idle.filter fun m => m.synthesisFiles d ≠ []) = [] := by
      simpa using each
    refine creation_of_filter_eq folder ?_
    rw [split, List.filter_append, List.filter_append, List.filter_append, none_, List.append_nil]
  case discovered =>
    rw [Registry.result_discover, mapM_eq_ok_iff] at found
    refine List.forall₂_iff_zip.mpr ⟨found.length_eq, fun {c m} pair => ⟨?_, fun path => ?_⟩⟩
    · exact (Registry.result_build_eq_ok_iff.mp ((List.forall₂_iff_zip.mp found).2 pair)).path_eq
    · rw [path]
      exact Registry.holdsDirectly_of_mem_candidates sound (List.of_mem_zip pair).1

/-! ### A module in a crowd -/

def tidy : Disk where
  entries := [(["m"], .directory), (["m", "a.vhd"], .file (.text "") false)]
  distinct := by decide
  cwd := []

/-- The disk with other contents of the file, and with files and directories around it. -/
def crowded : Disk where
  entries := [(["m"], .directory), (["m", "a.vhd"], .file (.text "entity a") true),
    (["m", "a.vhdl"], .file (.text "") false), (["m", "deep"], .directory),
    (["m", "deep", "b.vhd"], .file (.text "") false), (["m", "test"], .directory),
    (["m", "test", "tb.vhd"], .file (.text "") false)]
  distinct := by decide
  cwd := []

theorem sound_tidy : tidy.Sound :=
  .of_entries (by decide +kernel) (by decide +kernel)

theorem sound_crowded : crowded.Sound :=
  .of_entries (by decide +kernel) (by decide +kernel)

theorem not_isSourceName_vhdl : ¬ Module.IsSourceName "a.vhdl" := fun named => by
  have extension := (Module.hasExtension_stepTo_iff (by decide) (by decide) ⟨"/m"⟩).mpr named
  revert extension
  decide +kernel

/-- On both disks, the module has the one source file. -/
theorem holdsSource_m {d : Disk} (known : d = tidy ∨ d = crowded) (name : String) :
    Module.HoldsSource d ⟨"/m"⟩ name ↔ name = "a.vhd" := by
  have sound : d.Sound := by
    rcases known with rfl | rfl
    exacts [sound_tidy, sound_crowded]
  have walked : (⟨"/m"⟩ : Path).Walked := Path.Walked.root.child (by decide : '/' ∉ "m".toList)
  have place : d.place ⟨"/m"⟩ = ["m"] := by
    rcases known with rfl | rfl <;> decide +kernel
  rw [Module.holdsSource_iff_of_straight sound walked (by decide +kernel) (by decide +kernel), place]
  constructor
  · intro source
    obtain ⟨contents, executable, stands⟩ := source.file
    have listed := Disk.mem_entries stands
    rcases known with rfl | rfl
    · obtain ⟨rfl, -⟩ : name = "a.vhd" ∧ _ := by simpa [tidy] using listed
      rfl
    · obtain ⟨rfl, -⟩ | ⟨rfl, -⟩ : (name = "a.vhd" ∧ _) ∨ (name = "a.vhdl" ∧ _) := by
        simpa [crowded] using listed
      · rfl
      · exact absurd source.named not_isSourceName_vhdl
  · rintro rfl
    refine ⟨⟨['a'], ['v', 'h', 'd'], by decide, by decide, by decide⟩, ?_, ?_⟩
    · rcases known with rfl | rfl
      exacts [⟨_, _, rfl⟩, ⟨_, _, rfl⟩]
    · rcases known with rfl | rfl <;> rfl

def single : Design :=
  ⟨"p", [.plain ⟨"/m"⟩ false], "part", "p_top", none, .empty, [], none, []⟩

/-- What stands around the source file of a module does not come into the script, and neither does a
module that is not there. The module holds what stands directly in its directory. -/
theorem creation_in_crowd :
    ((Registry.ofRegistrations [] false).discover tidy [⟨"/"⟩] none).result = .ok single.modules ∧
      single.creation crowded ⟨"/p"⟩ = single.creation tidy ⟨"/p"⟩ ∧
      { single with modules := [] ++ [Module.plain ⟨"/none"⟩ true] ++ single.modules }.creation
        tidy ⟨"/p"⟩ = single.creation tidy ⟨"/p"⟩ ∧
      Module.HoldsDirectly ⟨"/m"⟩ := by
  have found : ((Registry.ofRegistrations [] false).discover tidy [⟨"/"⟩] none).result =
      .ok single.modules := eq_ok_of_toOption (by decide +kernel)
  obtain ⟨disks, -, insertion, discovered⟩ := creation_follows_sources single ⟨"/p"⟩
  refine ⟨found, disks tidy crowded sound_tidy sound_crowded rfl fun m member name => ?crowd,
    insertion tidy [] _ single.modules rfl fun m member => ?idle, ?direct⟩
  case crowd =>
    obtain rfl := List.mem_singleton.mp member
    exact (holdsSource_m (.inr rfl) name).trans (holdsSource_m (.inl rfl) name).symm
  case idle =>
    obtain rfl := List.mem_singleton.mp member
    decide +kernel
  case direct =>
    have one : Registry.candidates tidy [⟨"/"⟩] none = [⟨"m", ⟨"/m"⟩⟩] := by decide +kernel
    have all := discovered [] false tidy [⟨"/"⟩] none sound_tidy found
    rw [one] at all
    exact (List.forall₂_cons.mp all).1.2 rfl

end Design

end FpgaProject
