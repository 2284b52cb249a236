import FpgaProject.Proofs.Script.Dependence

/-!
The libraries of modules.

A library is called like its module, with the old suffix behind that or without. So two modules of
different names have one library exactly if one of them has the suffix and the other one, without it,
is called by the name that comes of it (`Module.Clashes`). A discovery can give two such modules if a
factory or a specialization file sets the suffix of one of them (`merged_libraries`). Main statement:
`libraries_own_iff`.
-/

namespace FpgaProject

namespace Module

/-- The one module has the suffix, and the other one has the name that comes of it. -/
structure Clashes (m m' : Module) : Prop where
  suffixed : m.librarySuffix = true
  bare : m'.librarySuffix = false
  name : m'.name = m.name ++ "_lib"

variable {m m' : Module}

theorem append_suffix_ne (name : String) : name ++ "_lib" ≠ name := by
  intro same
  have lengths := congrArg String.length same
  simp at lengths

theorem library_eq_of_suffixed (suffixed : m.librarySuffix = true) :
    m.library = m.name ++ "_lib" := by
  simp [library, suffixed]

theorem library_eq_of_bare (bare : m.librarySuffix = false) : m.library = m.name := by
  simp [library, bare]

theorem Clashes.library_eq (clash : Clashes m m') : m.library = m'.library := by
  rw [library_eq_of_suffixed clash.suffixed, library_eq_of_bare clash.bare, clash.name]

theorem Clashes.name_ne (clash : Clashes m m') : m.name ≠ m'.name := fun same =>
  append_suffix_ne m.name (clash.name.symm.trans same.symm)

/-- One library is that of two modules exactly if they agree in name and suffix or clash. -/
theorem library_eq_iff : m.library = m'.library ↔
    (m.name = m'.name ∧ m.librarySuffix = m'.librarySuffix) ∨ Clashes m m' ∨ Clashes m' m := by
  constructor
  · intro same
    cases suffix : m.librarySuffix <;> cases suffix' : m'.librarySuffix
    case false.false =>
      rw [library_eq_of_bare suffix, library_eq_of_bare suffix'] at same
      exact .inl ⟨same, rfl⟩
    case false.true =>
      rw [library_eq_of_bare suffix, library_eq_of_suffixed suffix'] at same
      exact .inr (.inr ⟨suffix', suffix, same⟩)
    case true.false =>
      rw [library_eq_of_suffixed suffix, library_eq_of_bare suffix'] at same
      exact .inr (.inl ⟨suffix, suffix', same.symm⟩)
    case true.true =>
      rw [library_eq_of_suffixed suffix, library_eq_of_suffixed suffix'] at same
      exact .inl ⟨by simpa using same, rfl⟩
  · rintro (⟨name, suffix⟩ | clash | clash)
    · rw [library, library, name, suffix]
    · exact clash.library_eq
    · exact clash.library_eq.symm

/-- Modules of different names have different libraries. -/
def OwnLibraries (ms : List Module) : Prop :=
  ∀ m ∈ ms, ∀ m' ∈ ms, m.name ≠ m'.name → m.library ≠ m'.library

variable {ms : List Module}

theorem ownLibraries_iff : OwnLibraries ms ↔ ∀ m ∈ ms, ∀ m' ∈ ms, ¬ Clashes m m' := by
  constructor
  · intro own m member m' member' clash
    exact own m member m' member' clash.name_ne clash.library_eq
  · intro clear m member m' member' apart same
    rcases library_eq_iff.mp same with ⟨name, -⟩ | clash | clash
    · exact apart name
    · exact clear m member m' member' clash
    · exact clear m' member' m member clash

/-- If the suffix is the same throughout, each module has its own library. -/
theorem ownLibraries_of_uniform (suffix : Bool) (uniform : ∀ m ∈ ms, m.librarySuffix = suffix) :
    OwnLibraries ms := by
  refine ownLibraries_iff.mpr fun m member m' member' clash => ?_
  have same := (uniform m member).trans (uniform m' member').symm
  rw [clash.suffixed, clash.bare] at same
  cases same

/-- With libraries of their own, modules that all have different names all have different
libraries. -/
theorem OwnLibraries.nodup (own : OwnLibraries ms) (names : (ms.map name).Nodup) :
    (ms.map library).Nodup := by
  rw [List.Nodup, List.pairwise_map] at names ⊢
  exact names.imp_of_mem fun member member' apart => own _ member _ member' apart

theorem OwnLibraries.filter (own : OwnLibraries ms) (keep : Module → Bool) :
    OwnLibraries (ms.filter keep) := fun m member m' member' =>
  own m (List.mem_of_mem_filter member) m' (List.mem_of_mem_filter member')

end Module

namespace Design

open Script

def readLibrary? : Command → Option String
  | .readSources library _ => some library
  | _ => none

theorem readLibraries_constraint (c : ConstraintAccount) :
    c.commands.filterMap readLibrary? = [] := by
  obtain ⟨file, reference, usage⟩ := c
  cases usage <;> rfl

theorem readLibraries_commands (a : Account) :
    a.commands.filterMap readLibrary? = a.sources.map Prod.fst := by
  have sources : a.sourceCommands.filterMap readLibrary? = a.sources.map Prod.fst := by
    simp [Account.sourceCommands, List.filterMap_map, Function.comp_def, readLibrary?]
  have blockDesign : a.blockDesignCommands.filterMap readLibrary? = [] := by
    unfold Account.blockDesignCommands
    cases a.blockDesign <;> rfl
  have generics : a.genericCommands.filterMap readLibrary? = [] := by
    unfold Account.genericCommands
    split <;> rfl
  have constraints : a.constraintCommands.filterMap readLibrary? = [] := by
    simp [Account.constraintCommands, List.filterMap_flatMap, readLibraries_constraint]
  simp [Account.commands, Account.groups, List.intercalate_cons_cons, List.filterMap_cons,
    readLibrary?, sources, blockDesign, generics, constraints]

theorem libraries_of_mapM {d : Disk} {ms : List Module} {sources : List (String × List String)}
    (all : ms.mapM (sourceAccount? d) = some sources) :
    sources.map Prod.fst = ms.map Module.library := by
  induction ms generalizing sources with
  | nil =>
    obtain rfl := Option.some.inj all
    rfl
  | cons m ms ih =>
    simp only [List.mapM_cons, Option.bind_eq_bind, Option.bind_eq_some_iff] at all
    obtain ⟨s, told, rest, each, same⟩ := all
    obtain rfl := Option.some.inj same
    obtain ⟨files, -, rfl⟩ := Option.map_eq_some_iff.mp told
    rw [List.map_cons, List.map_cons, ih each]

/-- A script of creation reads sources into the libraries of the modules that have some. -/
theorem readLibraries_creation {x : Design} {d : Disk} {folder : Path} {commands : List Command}
    (made : x.creation d folder = .ok commands) :
    commands.filterMap readLibrary? =
      (x.modules.filter fun m => m.synthesisFiles d ≠ []).map Module.library := by
  obtain ⟨a, told, rfl⟩ := exists_account_of_creation made
  simp only [account?_eq_bind, Option.bind_eq_bind, Option.bind_eq_some_iff] at told
  obtain ⟨sources, each, blockDesign, -, constraints, -, same⟩ := told
  obtain rfl := Option.some.inj same
  rw [readLibraries_commands, libraries_of_mapM each]

end Design

namespace Registry

open Script

variable {made : List (String × Factory)} {librarySuffix : Bool} {d : Disk}

/-- Only factories and specialization files set a suffix other than that of the registry. -/
theorem Becomes.librarySuffix_eq {c : Candidate} {m : Module}
    (becomes : Becomes made librarySuffix d c m) (unregistered : lastFor? made c.name = none)
    (missing : d.pathExists c.file = false) : m.librarySuffix = librarySuffix := by
  cases becomes with
  | factory registered => simp [unregistered] at registered
  | specialized _ there => simp [missing] at there
  | plain => rfl

/-- The modules that a discovery gives have libraries of their own exactly if no two of them clash,
as only modules with different suffixes can, and only a factory or a specialization file sets another
suffix than that of the registry. The script of creation reads the sources of each module into its
library, so it names none twice if the modules have different names and libraries of their own. -/
theorem libraries_own_iff {roots : List Path} {names : Option (List String)} {ms : List Module}
    (found : ((ofRegistrations made librarySuffix).discover d roots names).result = .ok ms) :
    (Module.OwnLibraries ms ↔ ∀ m ∈ ms, ∀ m' ∈ ms, ¬ m.Clashes m') ∧
    List.Forall₂ (fun c m => lastFor? made c.name = none → d.pathExists c.file = false →
        m.librarySuffix = librarySuffix)
      (candidates d roots names) ms ∧
    ((∀ c ∈ candidates d roots names, lastFor? made c.name = none ∧ d.pathExists c.file = false) →
      Module.OwnLibraries ms) ∧
    ∀ (x : Design) (d' : Disk) (folder : Path) (commands : List Command), x.modules = ms →
      x.creation d' folder = .ok commands →
      let read := ms.filter fun m => m.synthesisFiles d' ≠ []
      commands.filterMap Design.readLibrary? = read.map Module.library ∧
        (Module.OwnLibraries ms → (read.map Module.name).Nodup →
          (commands.filterMap Design.readLibrary?).Nodup) := by
  rw [result_discover] at found
  refine ⟨Module.ownLibraries_iff, ?_, fun common => ?_, ?_⟩
  · rw [mapM_eq_ok_iff] at found
    exact found.imp fun c m built => (result_build_eq_ok_iff.mp built).librarySuffix_eq
  · refine Module.ownLibraries_of_uniform librarySuffix fun m member => ?_
    obtain ⟨c, there, built⟩ := exists_of_mem_of_mapM found m member
    obtain ⟨unregistered, missing⟩ := common c there
    exact (result_build_eq_ok_iff.mp built).librarySuffix_eq unregistered missing
  · rintro x d' folder commands rfl made read
    have libraries := Design.readLibraries_creation made
    exact ⟨libraries, fun own distinct => libraries ▸ (own.filter _).nodup distinct⟩

/-! ### Two modules with one library -/

/-- A disk with modules `a` and `a_lib`. -/
def twoShelves : Disk where
  entries := [(["r"], .directory), (["r", "a"], .directory),
    (["r", "a", "a.vhd"], .file (.text "") false), (["s"], .directory),
    (["s", "a_lib"], .directory), (["s", "a_lib", "b.vhd"], .file (.text "") false)]
  distinct := by decide
  cwd := []

/-- The disk with a specialization file for `a`. -/
def merging : Disk :=
  twoShelves.put ["r", "a", "module_a.toml"] (.file (.text "[module]\nlibrary-suffix = true\n") false)

/-- What a registry makes of the two. -/
def merged (librarySuffix : Bool) : List Module :=
  [.plain ⟨"/r/a"⟩ true, .plain ⟨"/s/a_lib"⟩ librarySuffix]

theorem discover_merging (librarySuffix : Bool) :
    ((ofRegistrations [] librarySuffix).discover merging [⟨"/r"⟩, ⟨"/s"⟩] none).result =
      .ok (merged librarySuffix) := by
  cases librarySuffix <;> exact eq_ok_of_toOption (by decide +kernel)

/-- A design with the modules of a registry that sets the suffix as well. -/
def apartDesign : Design :=
  ⟨"p", merged true, "part", "p_top", none, .empty, [], none, []⟩

/-- If the registry sets the suffix as well, each has its own library, and the script of creation
names none twice. -/
theorem merged_libraries_own :
    ((ofRegistrations [] true).discover merging [⟨"/r"⟩, ⟨"/s"⟩] none).result = .ok (merged true) ∧
      Module.OwnLibraries (merged true) ∧
      ∃ commands, apartDesign.creation twoShelves ⟨"/p"⟩ = .ok commands ∧
        commands.filterMap Design.readLibrary? = ["a_lib", "a_lib_lib"] ∧
        (commands.filterMap Design.readLibrary?).Nodup := by
  obtain ⟨clashes, -, -, scripts⟩ := libraries_own_iff (discover_merging true)
  have own : Module.OwnLibraries (merged true) := clashes.mpr fun m _ m' member clash => by
    have suffixed : ∀ m ∈ merged true, m.librarySuffix = true := by decide
    exact absurd clash.bare (by simp [suffixed m' member])
  have written : (apartDesign.creation twoShelves ⟨"/p"⟩).toBool = true := by decide +kernel
  cases made : apartDesign.creation twoShelves ⟨"/p"⟩ with
  | error e => simp [made, Except.toBool] at written
  | ok commands =>
    obtain ⟨libraries, distinct⟩ := scripts apartDesign twoShelves ⟨"/p"⟩ commands rfl made
    exact ⟨discover_merging true, own, commands, rfl, libraries.trans (by decide +kernel),
      distinct own (by decide +kernel)⟩

/-- Otherwise both have the library `a_lib`. -/
theorem merged_libraries :
    ((ofRegistrations [] false).discover merging [⟨"/r"⟩, ⟨"/s"⟩] none).result =
        .ok (merged false) ∧
      (merged false).map Module.name = ["a", "a_lib"] ∧
      (merged false).map Module.library = ["a_lib", "a_lib"] ∧
      ¬ Module.OwnLibraries (merged false) := by
  have names : (merged false).map Module.name = ["a", "a_lib"] := by decide +kernel
  have libraries : (merged false).map Module.library = ["a_lib", "a_lib"] := by decide +kernel
  refine ⟨discover_merging false, names, libraries, fun own => ?_⟩
  have distinct := own.nodup (by rw [names]; decide)
  rw [libraries] at distinct
  exact absurd distinct (by decide)

end Registry

end FpgaProject
