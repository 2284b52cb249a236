import Mathlib.Data.List.Sort
import FpgaProject.Proofs.Registry.Sources

/-!
Discovery below two spellings of one root.

What comes of the directories below a root depends on where they stand and not on how the root is
spelled, as long as all the paths can be looked up (`Registry.alike_build`). But a listing comes to
nothing where an empty piece follows the dots at the start of a relative path, and then nothing is
discovered and nothing is said. So two spellings of a root agree exactly if that befalls both or
neither, or if there is nothing to be found (`spellings_discover_alike_iff`).
-/

namespace FpgaProject

/-! ### Alike outcomes -/

/-- Outcomes are alike if both are failures, or both give what belongs together. -/
inductive Alike {α β ε : Type} (R : α → β → Prop) : Except ε α → Except ε β → Prop where
  | ok {a : α} {b : β} : R a b → Alike R (.ok a) (.ok b)
  | error {e e' : ε} : Alike R (.error e) (.error e')

namespace Alike

variable {α β γ ε : Type} {R : α → β → Prop}

/-- What is made in steps that are alike is alike. -/
theorem mapM {f : γ → Except ε α} {g : γ → Except ε β} {xs : List γ}
    (each : ∀ x ∈ xs, Alike R (f x) (g x)) :
    Alike (List.Forall₂ R) (xs.mapM f) (xs.mapM g) := by
  induction xs with
  | nil => exact .ok .nil
  | cons x xs ih =>
    obtain ⟨first, others⟩ := List.forall_mem_cons.mp each
    rw [List.mapM_cons, List.mapM_cons]
    generalize f x = a at first
    generalize g x = b at first
    cases first with
    | error => exact .error
    | ok here =>
      have rest := ih others
      generalize xs.mapM f = as at rest
      generalize xs.mapM g = bs at rest
      cases rest with
      | error => exact .error
      | ok there => exact .ok (.cons here there)

theorem mono {S : α → β → Prop} {x : Except ε α} {y : Except ε β} (alike : Alike R x y)
    (weaker : ∀ a b, R a b → S a b) : Alike S x y := by
  cases alike with
  | ok related => exact .ok (weaker _ _ related)
  | error => exact .error

theorem symm {S : β → α → Prop} {x : Except ε α} {y : Except ε β} (alike : Alike R x y)
    (turned : ∀ a b, R a b → S b a) : Alike S y x := by
  cases alike with
  | ok related => exact .ok (turned _ _ related)
  | error => exact .error

/-- Only no steps at all give nothing. -/
theorem nil_mapM_iff {f : γ → Except ε β} {xs : List γ} :
    Alike (List.Forall₂ R) (.ok []) (xs.mapM f) ↔ xs = [] := by
  constructor
  · intro alike
    cases outcome : xs.mapM f with
    | error e =>
      rw [outcome] at alike
      cases alike
    | ok ys =>
      rw [outcome] at alike
      cases alike with
      | ok related =>
        cases related
        exact List.length_eq_zero_iff.mp (mapM_eq_ok_iff.mp outcome).length_eq
  · rintro rfl
    exact .ok .nil

end Alike

namespace Disk

variable {d : Disk} {p q at_ other dir dir' : Path} {l m : Location} {name : String}

/-! ### Paths that can be looked up -/

/-- What stands directly in a directory can be looked up below its path. -/
def Fits (d : Disk) (at_ : Path) (l : Location) : Prop :=
  ∀ name, d.entryAt? (l ++ [name]) ≠ none → textFault? (stepTo at_ name) = none

theorem fits_iff_names : d.Fits at_ l ↔ ∀ name ∈ d.names l, textFault? (stepTo at_ name) = none :=
  forall_congr' fun _ => imp_congr_left mem_names_iff.symm

/-- A directory stands at a location and has been found under a path that a walk has written. -/
structure Stands (d : Disk) (dir : Path) (l : Location) : Prop where
  walked : dir.Walked
  found : d.locate dir = .ok l
  there : d.entryAt? l = some .directory
  fits : d.Fits dir l

/-- A path leads to a directory, and what a discovery looks up below can be looked up: the entries of
the directory and those of the directories in it. -/
structure Spells (d : Disk) (p : Path) (l : Location) : Prop where
  found : d.locate p = .ok l
  there : d.entryAt? l = some .directory
  top : d.Fits (respelled p) l
  below : ∀ name, d.entryAt? (l ++ [name]) = some .directory →
    d.Fits (stepTo (respelled p) name) (l ++ [name])

theorem Spells.of_names (found : d.locate p = .ok l) (there : d.entryAt? l = some .directory)
    (top : ∀ name ∈ d.names l, textFault? (stepTo (respelled p) name) = none)
    (below : ∀ name ∈ d.names l, ∀ file ∈ d.names (l ++ [name]),
      textFault? (stepTo (stepTo (respelled p) name) file) = none) : d.Spells p l :=
  ⟨found, there, fits_iff_names.mpr top, fun name directory =>
    fits_iff_names.mpr (below name (mem_names_iff.mpr (by simp [directory])))⟩

/-- Below a directory that has been found, a name leads to the entry, if there is one. -/
theorem Fits.locate_iff (sound : d.Sound) (fits : d.Fits at_ l) (found : d.locate at_ = .ok l)
    (legal : Path.IsName name) (named : Named name) :
    d.locate (stepTo at_ name) = .ok m ↔ m = l ++ [name] ∧ d.entryAt? m ≠ none := by
  constructor
  · intro arrived
    exact (locate_stepTo_named_iff sound found legal named (textFault?_of_locate arrived)).mp arrived
  · rintro ⟨rfl, present⟩
    exact (locate_stepTo_named_iff sound found legal named (fits name present)).mpr ⟨rfl, present⟩

theorem Fits.find?_eq (sound : d.Sound) (fits : d.Fits at_ l) (found : d.locate at_ = .ok l)
    (legal : Path.IsName name) (named : Named name) :
    d.find? (stepTo at_ name) = d.entryAt? (l ++ [name]) := by
  unfold find?
  cases present : d.entryAt? (l ++ [name]) with
  | some e =>
    have arrived := (fits.locate_iff sound found legal named).mpr ⟨rfl, by simp [present]⟩
    simp only [arrived, present]
  | none =>
    cases arrived : d.locate (stepTo at_ name) with
    | error f => rfl
    | ok m =>
      obtain ⟨rfl, there⟩ := (fits.locate_iff sound found legal named).mp arrived
      exact absurd present there

/-- A text is read alike below two paths to one directory. -/
theorem alike_readText (sound : d.Sound) (here : d.Stands dir l) (here' : d.Stands dir' l)
    (legal : Path.IsName name) (named : Named name) :
    Alike (· = ·) (d.readText (dir.child name)) (d.readText (dir'.child name)) := by
  rw [← stepTo_of_ne here.walked.text_ne.1, ← stepTo_of_ne here'.walked.text_ne.1]
  have first := fun m => here.fits.locate_iff (m := m) sound here.found legal named
  have second := fun m => here'.fits.locate_iff (m := m) sound here'.found legal named
  unfold readText
  cases arrived : d.locate (stepTo dir name) with
  | ok m =>
    have arrived' := (second m).mpr ((first m).mp arrived)
    rw [arrived']
    simp only [bind, Except.bind]
    split
    · exact .ok rfl
    all_goals exact .error
  | error f =>
    cases arrived' : d.locate (stepTo dir' name) with
    | error f' => exact .error
    | ok m =>
      have lost := (first m).mpr ((second m).mp arrived')
      rw [arrived] at lost
      cases lost

end Disk

namespace Module

/-- Where the file of a path stands, by its absolute form. -/
def actual? (d : Disk) (p : Path) : Option Location :=
  (p.absolute? d.cwdPath).map d.place

/-- Modules with one name whose files for synthesis are the same files. -/
structure SameModule (d : Disk) (m m' : Module) : Prop where
  name : m.name = m'.name
  sources : (m.synthesisFiles d).map (actual? d) = (m'.synthesisFiles d).map (actual? d)

variable {d : Disk} {dir dir' : Path} {l : Location}

/-- There is one way to list what is wanted. -/
theorem Lists.exists_names {wanted : String → Prop} {files files' : List Path}
    (lists : Lists dir wanted files) (lists' : Lists dir' wanted files') :
    ∃ names : List String, files = names.map dir.child ∧ files' = names.map dir'.child ∧
      ∀ name ∈ names, wanted name := by
  obtain ⟨names, rfl, ordered, listed⟩ := lists
  obtain ⟨names', rfl, ordered', listed'⟩ := lists'
  obtain rfl := ordered.eq_of_mem_iff ordered' fun name => (listed name).trans (listed' name).symm
  exact ⟨names, rfl, rfl, fun name => (listed name).mp⟩

theorem lists_of_stands (sound : d.Sound) (here : d.Stands dir l) :
    Lists dir (SourceAt d l) (sourcesIn d dir) := by
  refine (lists_all_iff (lists_sourcesIn sound here.walked (Disk.locate_eq_ok here.found).symm
    fun _ _ => here.found)).mpr fun name source => ?_
  obtain ⟨contents, executable, stands⟩ := source.file
  rw [← Disk.stepTo_of_ne here.walked.text_ne.1]
  exact here.fits name (by simp [stands])

theorem actual?_child (sound : d.Sound) (here : d.Stands dir l) {name : String}
    (legal : Path.IsName name) (named : Disk.Named name) :
    actual? d (dir.child name) = some (l ++ [name]) := by
  obtain ⟨q, absolute⟩ := Path.exists_absolute? (Path.text_child_ne legal dir) d.cwdPath
  rw [actual?, absolute, Option.map_some, Disk.place_of_absolute? sound absolute,
    Disk.place_child legal, Disk.step_name named, ← Disk.locate_eq_ok here.found]

/-- The sources of a directory are the same files under two paths. -/
theorem actual?_sourcesIn (sound : d.Sound) (here : d.Stands dir l) (here' : d.Stands dir' l) :
    (sourcesIn d dir).map (actual? d) = (sourcesIn d dir').map (actual? d) := by
  obtain ⟨names, first, second, sources⟩ :=
    (lists_of_stands sound here).exists_names (lists_of_stands sound here')
  rw [first, second, List.map_map, List.map_map]
  refine List.map_congr_left fun name member => ?_
  obtain ⟨contents, executable, stands⟩ := (sources name member).file
  obtain ⟨legal, named, -⟩ := sound.named _ _ _ stands
  exact (actual?_child sound here legal named).trans (actual?_child sound here' legal named).symm

end Module

namespace Registry

open Disk FpgaProject.Module

variable {d : Disk} {p q dir dir' : Path} {l : Location} {name : String}

/-! ### Candidates -/

/-- The names of the directories in a directory that pass a filter. -/
def found (d : Disk) (l : Location) (names : Option (List String)) : List String :=
  (d.names l).filter fun name => d.entryAt? (l ++ [name]) == some .directory && passes names name

theorem mem_found_iff {names : Option (List String)} :
    name ∈ found d l names ↔ d.entryAt? (l ++ [name]) = some .directory ∧ passes names name := by
  rw [found, List.mem_filter, mem_names_iff, Bool.and_eq_true, beq_iff_eq]
  exact and_iff_right_of_imp fun h => by simp [h.1]

/-- The candidates below a root, by their names. -/
theorem candidates_eq_map (sound : d.Sound) (spells : d.Spells p l) (goesOn : startsBlank p = false)
    (names : Option (List String)) :
    candidates d [p] names =
      (found d l names).map fun name => ⟨name, stepTo (respelled p) name⟩ := by
  have arrived := (follow?_route spells.found spells.there goesOn).2
  have each : ∀ name ∈ d.names l, Path.IsName name ∧ Named name := by
    intro name member
    obtain ⟨e, stands⟩ := Option.ne_none_iff_exists'.mp (mem_names_iff.mp member)
    exact ⟨(sound.named _ _ _ stands).1, (sound.named _ _ _ stands).2.1⟩
  rw [candidates, List.flatMap_singleton, directoriesIn,
    list_eq spells.found spells.there goesOn, List.filter_true, List.filter_map,
    List.filterMap_map, found, ← List.filterMap_eq_map, ← List.filterMap_eq_filter,
    ← List.filterMap_eq_filter, List.filterMap_filterMap, List.filterMap_filterMap]
  refine List.filterMap_congr fun name member => ?_
  obtain ⟨legal, named⟩ := each name member
  have entry := spells.top.find?_eq sound arrived legal named
  have last := fileName?_stepTo legal named (respelled p)
  cases directory : d.entryAt? (l ++ [name]) == some .directory with
  | false => simp [Option.guard, isDirectory, entry, directory]
  | true =>
    cases pass : passes names name with
    | false => simp [Option.guard, isDirectory, entry, directory, last, pass]
    | true => simp [Option.guard, isDirectory, entry, directory, last, pass]

/-- A candidate stands where its name says. -/
theorem stands_stepTo (sound : d.Sound) (spells : d.Spells p l) (goesOn : startsBlank p = false)
    (directory : d.entryAt? (l ++ [name]) = some .directory) :
    d.Stands (stepTo (respelled p) name) (l ++ [name]) := by
  obtain ⟨followed, arrived⟩ := follow?_route spells.found spells.there goesOn
  obtain ⟨legal, named, -⟩ := sound.named _ _ _ directory
  exact ⟨walked_stepTo (walked_of_follow? (start_route p) (free_route p) followed) legal named,
    (spells.top.locate_iff sound arrived legal named).mpr ⟨rfl, by simp [directory]⟩, directory,
    spells.below name directory⟩

/-! ### Modules -/

theorem isName_specialization (legal : Path.IsName name) :
    Path.IsName ("module_" ++ name ++ ".toml") ∧ Named ("module_" ++ name ++ ".toml") := by
  have chars : ("module_" ++ name ++ ".toml").toList =
      "module_".toList ++ (name.toList ++ ".toml".toList) := by simp
  have long : 2 < ("module_" ++ name ++ ".toml").toList.length := by
    rw [chars, List.length_append]
    exact Nat.lt_of_lt_of_le (by decide) (Nat.le_add_right _ _)
  refine ⟨⟨fun empty => ?_, ?_⟩, fun dot => ?_, fun up => ?_⟩
  · simp [empty] at long
  · simp [chars, legal.2]
  · simp [dot] at long
  · simp [up] at long

/-- A specialization is loaded alike under two paths to one directory. -/
theorem alike_load (sound : d.Sound) (here : d.Stands dir l) (here' : d.Stands dir' l)
    (legal : Path.IsName name) :
    Alike (fun m m' => m.path = dir ∧ m'.path = dir')
      (Specialization.load d dir (Specialization.fileFor dir name))
      (Specialization.load d dir' (Specialization.fileFor dir' name)) := by
  obtain ⟨legal', named'⟩ := isName_specialization legal
  have read := alike_readText sound here here' legal' named'
  unfold Specialization.load Specialization.fileFor
  generalize d.readText (dir.child _) = text at read
  generalize d.readText (dir'.child _) = text' at read
  cases read with
  | error => exact .error
  | ok same =>
    subst same
    dsimp only
    rcases Specialization.ofText _ with f | ⟨_ | suffix, benches⟩
    · exact .error
    · exact .error
    · exact .ok ⟨rfl, rfl⟩

/-- Each factory makes a module of the directory that it is given. -/
def KeepsDirectory (made : List (String × Factory)) : Prop :=
  ∀ x ∈ made, ∀ dir, (x.2 dir).path = dir

/-- A module is made alike under two paths to one directory. -/
theorem alike_build {made : List (String × Factory)} (keeps : KeepsDirectory made)
    (librarySuffix : Bool) (sound : d.Sound) (here : d.Stands dir l) (here' : d.Stands dir' l)
    (legal : Path.IsName name) :
    Alike (fun m m' => m.path = dir ∧ m'.path = dir')
      ((ofRegistrations made librarySuffix).build d ⟨name, dir⟩).result
      ((ofRegistrations made librarySuffix).build d ⟨name, dir'⟩).result := by
  rw [result_build, result_build]
  cases last : lastFor? made name with
  | some f =>
    obtain ⟨x, member, -, rfl⟩ := exists_of_lastFor? last
    exact .ok ⟨keeps x member dir, keeps x member dir'⟩
  | none =>
    obtain ⟨legal', named'⟩ := isName_specialization legal
    have same : d.pathExists (Candidate.file ⟨name, dir⟩) =
        d.pathExists (Candidate.file ⟨name, dir'⟩) := by
      simp only [pathExists, Candidate.file, Specialization.fileFor]
      rw [← stepTo_of_ne here.walked.text_ne.1, ← stepTo_of_ne here'.walked.text_ne.1,
        here.fits.find?_eq sound here.found legal' named',
        here'.fits.find?_eq sound here'.found legal' named']
    dsimp only
    rw [same]
    split
    · exact alike_load sound here here' legal
    · exact .ok ⟨rfl, rfl⟩

/-- Modules that are made of one directory are the same. -/
theorem sameModule_of_stands (sound : d.Sound) {at_ at' : Path} (legal : Path.IsName name)
    (named : Named name) (here : d.Stands (stepTo at_ name) l) (here' : d.Stands (stepTo at' name) l)
    {m m' : Module} (path : m.path = stepTo at_ name) (path' : m'.path = stepTo at' name) :
    SameModule d m m' := by
  refine ⟨?_, ?_⟩
  · simp [Module.name, path, path', fileName?_stepTo legal named]
  · rw [Module.synthesisFiles, Module.synthesisFiles, path, path']
    exact actual?_sourcesIn sound here here'

/-! ### Discoveries -/

/-- A root with an empty piece behind dots at its start is not searched. -/
theorem discover_of_startsBlank (r : Registry) (d : Disk) (given : p.text ≠ "")
    (blank : startsBlank p = true) (names : Option (List String)) :
    (r.discover d [p] names).result = .ok [] := by
  have nothing : candidates d [p] names = [] := by
    simp [candidates, directoriesIn, list_of_startsBlank given blank]
  rw [result_discover, nothing]
  rfl

/-- Below a root that is searched, the directories that pass are made into modules. -/
theorem discover_eq (made : List (String × Factory)) (librarySuffix : Bool) (sound : d.Sound)
    (spells : d.Spells p l) (goesOn : startsBlank p = false) (names : Option (List String)) :
    ((ofRegistrations made librarySuffix).discover d [p] names).result =
      (found d l names).mapM fun name =>
        ((ofRegistrations made librarySuffix).build d ⟨name, stepTo (respelled p) name⟩).result := by
  rw [result_discover, candidates_eq_map sound spells goesOn, List.mapM_map]
  rfl

theorem alike_discover {made : List (String × Factory)} (keeps : KeepsDirectory made)
    (librarySuffix : Bool) (sound : d.Sound) (spells : d.Spells p l) (spells' : d.Spells q l)
    (goesOn : startsBlank p = false) (goesOn' : startsBlank q = false)
    (names : Option (List String)) :
    Alike (List.Forall₂ (SameModule d))
      ((ofRegistrations made librarySuffix).discover d [p] names).result
      ((ofRegistrations made librarySuffix).discover d [q] names).result := by
  rw [discover_eq made librarySuffix sound spells goesOn,
    discover_eq made librarySuffix sound spells' goesOn']
  refine Alike.mapM fun name member => ?_
  have directory := (mem_found_iff.mp member).1
  obtain ⟨legal, named, -⟩ := sound.named _ _ _ directory
  have here := stands_stepTo sound spells goesOn directory
  have here' := stands_stepTo sound spells' goesOn' directory
  exact (alike_build keeps librarySuffix sound here here' legal).mono fun m m' paths =>
    sameModule_of_stands sound legal named here here' paths.1 paths.2

/-- If one root is not searched and the other one is, their discoveries are alike only if there is
nothing to be found. -/
theorem alike_discover_iff_of_startsBlank (made : List (String × Factory)) (librarySuffix : Bool)
    (sound : d.Sound) (given : p.text ≠ "") (blank : startsBlank p = true) (spells : d.Spells q l)
    (goesOn : startsBlank q = false) (names : Option (List String)) :
    Alike (List.Forall₂ (SameModule d))
        ((ofRegistrations made librarySuffix).discover d [p] names).result
        ((ofRegistrations made librarySuffix).discover d [q] names).result ↔
      found d l names = [] := by
  rw [discover_of_startsBlank _ d given blank, discover_eq made librarySuffix sound spells goesOn,
    Alike.nil_mapM_iff]

theorem alike_discover_symm {made : List (String × Factory)} {librarySuffix : Bool}
    {names : Option (List String)}
    (alike : Alike (List.Forall₂ (SameModule d))
      ((ofRegistrations made librarySuffix).discover d [p] names).result
      ((ofRegistrations made librarySuffix).discover d [q] names).result) :
    Alike (List.Forall₂ (SameModule d))
      ((ofRegistrations made librarySuffix).discover d [q] names).result
      ((ofRegistrations made librarySuffix).discover d [p] names).result :=
  alike.symm fun _ _ related => related.flip.imp fun _ _ same => ⟨same.name.symm, same.sources.symm⟩

/-- Two spellings of a root that lead to one directory give the same modules, in the same order and
with the same files, or both fail, exactly if an empty piece behind dots at the start befalls both
or neither of them, or if there is no directory to be found. -/
theorem spellings_discover_alike_iff {made : List (String × Factory)} (keeps : KeepsDirectory made)
    (librarySuffix : Bool) (sound : d.Sound) (spells : d.Spells p l) (spells' : d.Spells q l)
    (names : Option (List String)) :
    Alike (List.Forall₂ (SameModule d))
        ((ofRegistrations made librarySuffix).discover d [p] names).result
        ((ofRegistrations made librarySuffix).discover d [q] names).result ↔
      startsBlank p = startsBlank q ∨
        ∀ name, d.entryAt? (l ++ [name]) = some .directory → passes names name = false := by
  have nothing : found d l names = [] ↔
      ∀ name, d.entryAt? (l ++ [name]) = some .directory → passes names name = false := by
    rw [List.eq_nil_iff_forall_not_mem]
    exact forall_congr' fun name => by rw [mem_found_iff]; simp
  have given := (textFault?_eq_none_iff.mp (textFault?_of_locate spells.found)).2.1
  have given' := (textFault?_eq_none_iff.mp (textFault?_of_locate spells'.found)).2.1
  rw [← nothing]
  cases blank : startsBlank p with
  | false =>
    cases blank' : startsBlank q with
    | false =>
      exact iff_of_true (alike_discover keeps librarySuffix sound spells spells' blank blank' names)
        (.inl rfl)
    | true =>
      have other := alike_discover_iff_of_startsBlank made librarySuffix sound given' blank' spells
        blank names
      simp only [Bool.false_eq_true, false_or]
      exact ⟨fun alike => other.mp (alike_discover_symm alike),
        fun none => alike_discover_symm (other.mpr none)⟩
  | true =>
    cases blank' : startsBlank q with
    | false =>
      have other := alike_discover_iff_of_startsBlank made librarySuffix sound given blank spells'
        blank' names
      simpa using other
    | true =>
      rw [discover_of_startsBlank _ d given blank, discover_of_startsBlank _ d given' blank']
      exact iff_of_true (.ok .nil) (.inl rfl)

def workshop : Disk where
  entries := [(["work"], .directory), (["work", "m"], .directory),
    (["work", "m", "a.vhd"], .file (.text "") false)]
  distinct := by decide
  cwd := ["work"]

theorem sound_workshop : workshop.Sound :=
  .of_entries (by decide +kernel) (by decide +kernel)

def suffixed : List (String × Factory) :=
  [("m", fun dir => .plain dir true)]

/-- The working directory and its absolute path give the same modules. -/
theorem alike_dot_absolute :
    Alike (List.Forall₂ (SameModule workshop))
      ((ofRegistrations suffixed false).discover workshop [⟨"."⟩] none).result
      ((ofRegistrations suffixed false).discover workshop [⟨"/work"⟩] none).result := by
  have keeps : KeepsDirectory suffixed := by
    intro x member dir
    obtain rfl := List.mem_singleton.mp member
    rfl
  have dot : workshop.Spells ⟨"."⟩ ["work"] :=
    .of_names (locate_dot rfl) rfl (by decide +kernel) (by decide +kernel)
  have absolute : workshop.Spells ⟨"/work"⟩ ["work"] :=
    .of_names rfl rfl (by decide +kernel) (by decide +kernel)
  exact (spellings_discover_alike_iff keeps false sound_workshop dot absolute none).mpr
    (.inl (by decide +kernel))

/-- With a slash at its end, the working directory gives nothing. -/
theorem not_alike_dot_slash :
    workshop.Sound ∧ workshop.Spells ⟨"."⟩ ["work"] ∧ workshop.Spells ⟨"./"⟩ ["work"] ∧
      ((ofRegistrations [] false).discover workshop [⟨"./"⟩] none).result = .ok [] ∧
      ¬ Alike (List.Forall₂ (SameModule workshop))
        ((ofRegistrations [] false).discover workshop [⟨"."⟩] none).result
        ((ofRegistrations [] false).discover workshop [⟨"./"⟩] none).result := by
  have dot : workshop.Spells ⟨"."⟩ ["work"] :=
    .of_names (locate_dot rfl) rfl (by decide +kernel) (by decide +kernel)
  have slash : workshop.Spells ⟨"./"⟩ ["work"] :=
    .of_names rfl rfl (by decide +kernel) (by decide +kernel)
  have nothing := discover_of_startsBlank (ofRegistrations [] false) workshop
    (p := ⟨"./"⟩) (by decide) (by decide +kernel) none
  refine ⟨sound_workshop, dot, slash, nothing, fun alike => ?_⟩
  have none_ := (alike_discover_iff_of_startsBlank [] false sound_workshop (by decide)
    (by decide +kernel) dot (by decide +kernel) none).mp (alike_discover_symm alike)
  have some_ : found workshop ["work"] none ≠ [] := by decide +kernel
  exact some_ none_

end Registry

end FpgaProject
