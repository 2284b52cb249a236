import Mathlib.Data.List.Induction
import FpgaProject.Registry
import FpgaProject.Proofs.Sequence
import FpgaProject.Proofs.Disk.Listing

/-!
Which modules a discovery gives, and when it fails.

A candidate becomes what the factory registered last for its name makes of it, or else what its
specialization file says, or else a plain module (`Becomes`); it fails if it depends on its
specialization file and that file makes no module (`Fails`). A discovery is the candidates made into
modules one after another (`result_buildAll`), so it succeeds exactly if no candidate fails, and its
error is that of the first one that does. Main statement: `discovery_fails_fast`.
-/

namespace FpgaProject

theorem Report.result_bind {α β : Type} (r : Report α) (f : α → Report β) :
    (r >>= f).result = r.result >>= fun a => (f a).result := by
  cases h : r.result with
  | error e => rw [Report.bind_of_error h]; rfl
  | ok a => rw [Report.bind_of_ok h]; rfl

/-! ### Specialization files -/

namespace Specialization

/-- Why a specialization file makes no module: it cannot be read, what it holds is no description of
a specialization, or there is no constructor in it. -/
inductive Refused (d : Disk) (file : Path) : Error → Prop where
  | unreadable {f : Fault} : d.readText file = .error f →
      Refused d file (.specializationLoad file (.fault f))
  | misfit {source : String} {f : Toml.Failure} : d.readText file = .ok source →
      ofText source = .error f → Refused d file (.specializationLoad file (.document f))
  | unconstructed {source : String} {benches : List BenchConfig} : d.readText file = .ok source →
      ofText source = .ok ⟨none, benches⟩ → Refused d file (.missingConstructor file)

/-- What a specialization file says of a module. -/
def Describes (d : Disk) (file : Path) (librarySuffix : Bool) (benches : List BenchConfig) : Prop :=
  ∃ source, d.readText file = .ok source ∧ ofText source = .ok ⟨some librarySuffix, benches⟩

theorem load_eq_ok_iff {d : Disk} {dir file : Path} {m : Module} :
    load d dir file = .ok m ↔
      ∃ librarySuffix benches, Describes d file librarySuffix benches ∧
        m = ⟨dir, librarySuffix, benches⟩ := by
  unfold load Describes
  cases read : d.readText file with
  | error f => simp
  | ok source =>
    rcases said : ofText source with f | ⟨_ | librarySuffix, benches⟩
    · simp [said]
    · simp [said]
    · simp [said, eq_comm]

theorem load_eq_error_iff {d : Disk} {dir file : Path} {e : Error} :
    load d dir file = .error e ↔ Refused d file e := by
  constructor
  · intro failed
    unfold load at failed
    cases read : d.readText file with
    | error f =>
      obtain rfl := by simpa [read] using failed
      exact .unreadable read
    | ok source =>
      rcases said : ofText source with f | ⟨_ | librarySuffix, benches⟩
      · obtain rfl := by simpa [read, said] using failed
        exact .misfit read said
      · obtain rfl := by simpa [read, said] using failed
        exact .unconstructed read said
      · simp [read, said] at failed
  · intro refused
    cases refused with
    | unreadable read => simp [load, read]
    | misfit read said => simp [load, read, said]
    | unconstructed read said => simp [load, read, said]

end Specialization

namespace Registry

/-! ### Registrations -/

/-- The registry that comes of registrations one after another. -/
def ofRegistrations (made : List (String × Factory)) (librarySuffix : Bool) : Registry :=
  made.foldl (fun r x => r.register x.1 x.2) { empty with librarySuffix := librarySuffix }

def lastFor? (made : List (String × Factory)) (name : String) : Option Factory :=
  ((made.filter (·.1 = name)).getLast?).map Prod.snd

theorem exists_of_lastFor? {made : List (String × Factory)} {name : String} {f : Factory}
    (last : lastFor? made name = some f) : ∃ x ∈ made, x.1 = name ∧ x.2 = f := by
  obtain ⟨x, registered, rfl⟩ := Option.map_eq_some_iff.mp last
  obtain ⟨member, named⟩ := List.mem_filter.mp (List.mem_of_getLast? registered)
  exact ⟨x, member, by simpa using named, rfl⟩

theorem factory?_register (r : Registry) (name m : String) (f : Factory) :
    (r.register name f).factory? m = if m = name then some f else r.factory? m := by
  unfold factory? register
  by_cases same : m = name
  · simp [same]
  · have apart : (m == name) = false := by simp [same]
    have others := Disk.lookup_filter (fun n => decide (n ≠ name)) m r.factories
    rw [List.lookup_cons, apart, if_neg same]
    simpa [same] using others

theorem factory?_ofRegistrations (made : List (String × Factory)) (librarySuffix : Bool)
    (name : String) : (ofRegistrations made librarySuffix).factory? name = lastFor? made name := by
  induction made using List.reverseRecOn with
  | nil => rfl
  | append_singleton made x ih =>
    have last : ofRegistrations (made ++ [x]) librarySuffix =
        (ofRegistrations made librarySuffix).register x.1 x.2 := by simp [ofRegistrations]
    rw [last, factory?_register, ih, lastFor?, lastFor?, List.filter_append]
    by_cases here : x.1 = name
    · simp [here]
    · simp [here, Ne.symm here]

theorem librarySuffix_ofRegistrations (made : List (String × Factory)) (librarySuffix : Bool) :
    (ofRegistrations made librarySuffix).librarySuffix = librarySuffix := by
  induction made using List.reverseRecOn with
  | nil => rfl
  | append_singleton made x ih => simpa [ofRegistrations, register] using ih

/-! ### Candidates -/

def Candidate.file (c : Candidate) : Path :=
  Specialization.fileFor c.dir c.name

/-- The directories below a root as candidates, whatever their names: each has the name of its
directory, and the names are different and come in order. -/
structure Enumerates (d : Disk) (root : Path) (listed : List Candidate) : Prop where
  dirs : listed.map Candidate.dir = directoriesIn d root
  named : ∀ c ∈ listed, c.dir.fileName? = some c.name
  ordered : (listed.map Candidate.name).Pairwise (· < ·)

theorem exists_enumerates {d : Disk} (sound : d.Sound) (root : Path) :
    ∃ listed, Enumerates d root listed := by
  obtain ⟨names, ordered, same⟩ := Disk.fileName?_list sound root fun _ => true
  have all : (d.list root fun _ => true).map (fun dir => dir.fileName?.getD "") = names := by
    have := congrArg (List.map fun name => name.getD "") same
    simpa [List.map_map, Function.comp_def] using this
  refine ⟨(directoriesIn d root).map fun dir => ⟨dir.fileName?.getD "", dir⟩, ?_, ?_, ?_⟩
  · simp [List.map_map, Function.comp_def]
  · intro c hc
    obtain ⟨dir, member, rfl⟩ := List.mem_map.mp hc
    have last : dir.fileName? ∈ names.map some :=
      same ▸ List.mem_map_of_mem (List.mem_filter.mp member).1
    obtain ⟨name, -, hname⟩ := List.mem_map.mp last
    simp [← hname]
  · rw [List.map_map]
    exact ordered.sublist (all ▸ List.filter_sublist.map _)

theorem exists_forall₂_enumerates {d : Disk} (sound : d.Sound) (roots : List Path) :
    ∃ listed, List.Forall₂ (Enumerates d) roots listed := by
  induction roots with
  | nil => exact ⟨[], .nil⟩
  | cons root roots ih =>
    obtain ⟨cs, first⟩ := exists_enumerates sound root
    obtain ⟨listed, rest⟩ := ih
    exact ⟨cs :: listed, .cons first rest⟩

/-- The candidates below the roots are the directories there, root by root, as far as their names
pass. -/
theorem candidates_eq {d : Disk} {roots : List Path} {listed : List (List Candidate)}
    (each : List.Forall₂ (Enumerates d) roots listed) (names : Option (List String)) :
    candidates d roots names = listed.flatten.filter fun c => passes names c.name := by
  induction each with
  | nil => rfl
  | @cons root cs roots listed first rest ih =>
    have here : candidates d [root] names = cs.filter fun c => passes names c.name := by
      rw [candidates, List.flatMap_singleton, ← first.dirs, List.filterMap_map,
        ← List.filterMap_eq_filter]
      refine List.filterMap_congr fun c hc => ?_
      simp [first.named c hc, Option.guard]
    rw [List.flatten_cons, List.filter_append, ← ih, ← here]
    simp [candidates]

/-! ### Modules -/

section

variable (made : List (String × Factory)) (librarySuffix : Bool) (d : Disk)

/-- What a candidate becomes: what the factory registered last for its name makes of it, or what its
specialization file says, or a plain module. -/
inductive Becomes (c : Candidate) : Module → Prop where
  | factory {f : Factory} : lastFor? made c.name = some f → Becomes c (f c.dir)
  | specialized {suffix : Bool} {benches : List BenchConfig} : lastFor? made c.name = none →
      d.pathExists c.file = true → Specialization.Describes d c.file suffix benches →
      Becomes c ⟨c.dir, suffix, benches⟩
  | plain : lastFor? made c.name = none → d.pathExists c.file = false →
      Becomes c (.plain c.dir librarySuffix)

/-- Unless a factory makes the module, it stands in the directory of the candidate. -/
theorem Becomes.path_eq {made : List (String × Factory)} {librarySuffix : Bool} {d : Disk}
    {c : Candidate} {m : Module} (becomes : Becomes made librarySuffix d c m)
    (unregistered : lastFor? made c.name = none) : m.path = c.dir := by
  cases becomes with
  | factory registered => simp [unregistered] at registered
  | specialized => rfl
  | plain => rfl

/-- A candidate fails if no factory is registered for its name and its specialization file, which is
there, makes no module. -/
structure Fails (c : Candidate) (e : Error) : Prop where
  unregistered : lastFor? made c.name = none
  there : d.pathExists c.file = true
  refused : Specialization.Refused d c.file e

end

section

variable {made : List (String × Factory)} {librarySuffix : Bool} {d : Disk} {c : Candidate}

/-- What comes of a candidate, by the source of its module. -/
theorem result_build : ((ofRegistrations made librarySuffix).build d c).result =
    match lastFor? made c.name with
    | some f => .ok (f c.dir)
    | none =>
      if d.pathExists c.file then Specialization.load d c.dir c.file
      else .ok (.plain c.dir librarySuffix) := by
  unfold build
  rw [factory?_ofRegistrations, librarySuffix_ofRegistrations]
  cases lastFor? made c.name with
  | some f => rfl
  | none =>
    unfold Candidate.file
    dsimp only
    split <;> rfl

theorem result_build_eq_ok_iff {m : Module} :
    ((ofRegistrations made librarySuffix).build d c).result = .ok m ↔
      Becomes made librarySuffix d c m := by
  rw [result_build]
  constructor
  · intro built
    cases last : lastFor? made c.name with
    | some f =>
      obtain rfl : f c.dir = m := by simpa [last] using built
      exact .factory last
    | none =>
      cases there : d.pathExists c.file with
      | true =>
        have loaded : Specialization.load d c.dir c.file = .ok m := by
          simpa [last, there] using built
        obtain ⟨suffix, benches, described, rfl⟩ := Specialization.load_eq_ok_iff.mp loaded
        exact .specialized last there described
      | false =>
        obtain rfl : Module.plain c.dir librarySuffix = m := by
          simpa [last, there] using built
        exact .plain last there
  · intro becomes
    cases becomes with
    | factory last => simp [last]
    | specialized last there described =>
      simpa [last, there] using Specialization.load_eq_ok_iff.mpr ⟨_, _, described, rfl⟩
    | plain last absent => simp [last, absent]

theorem result_build_eq_error_iff {e : Error} :
    ((ofRegistrations made librarySuffix).build d c).result = .error e ↔ Fails made d c e := by
  rw [result_build]
  constructor
  · intro built
    cases last : lastFor? made c.name with
    | some f => simp [last] at built
    | none =>
      cases there : d.pathExists c.file with
      | true =>
        have failed : Specialization.load d c.dir c.file = .error e := by
          simpa [last, there] using built
        exact ⟨last, there, Specialization.load_eq_error_iff.mp failed⟩
      | false => simp [last, there] at built
  · rintro ⟨last, there, refused⟩
    simpa [last, there] using Specialization.load_eq_error_iff.mpr refused

/-- A candidate becomes a module unless it fails. -/
theorem exists_becomes_iff :
    (∃ m, ((ofRegistrations made librarySuffix).build d c).result = .ok m) ↔
      ∀ e, ¬ Fails made d c e := by
  constructor
  · rintro ⟨m, ok⟩ e fails
    rw [result_build_eq_error_iff.mpr fails] at ok
    cases ok
  · intro sound
    cases result : ((ofRegistrations made librarySuffix).build d c).result with
    | ok m => exact ⟨m, rfl⟩
    | error e => exact absurd (result_build_eq_error_iff.mp result) (sound e)

end

/-- Names seen before change nothing but what is said. -/
theorem result_buildAll (r : Registry) (d : Disk) (seen : List String) (cs : List Candidate) :
    (r.buildAll d seen cs).result = cs.mapM fun c => (r.build d c).result := by
  induction cs generalizing seen with
  | nil => rfl
  | cons c cs ih =>
    rw [buildAll, List.mapM_cons, Report.result_bind]
    simp only [Report.result_bind, ih, Report.result_pure]
    rfl

theorem result_discover (r : Registry) (d : Disk) (roots : List Path)
    (names : Option (List String)) :
    (r.discover d roots names).result =
      (candidates d roots names).mapM fun c => (r.build d c).result := by
  unfold discover
  rw [Report.result_bind, result_buildAll]
  cases (candidates d roots names).mapM fun c => (r.build d c).result <;> rfl

end Registry

end FpgaProject
