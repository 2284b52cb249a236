import FpgaProject.Config
import FpgaProject.Proofs.Registry.Discovery

/-!
Discoveries in parts.

The candidates below two lists of roots are those below the one and then those below the other
(`candidates_append`), and a filter leaves candidates out (`candidates_some`). Each candidate becomes
a module by itself, whatever was seen before. So a discovery can be taken apart by its roots, and a
filter leaves modules out: those whose directories have other names. By the names of the modules
themselves one can tell these exactly if each module has the name of its directory
(`forall_filter_iff`), which a factory need not give it (`boxes_not_filtered`). Main statement:
`discovery_distributes`.
-/

namespace FpgaProject

namespace Registry

/-! ### Candidates -/

theorem candidates_append (d : Disk) (roots more : List Path) (names : Option (List String)) :
    candidates d (roots ++ more) names = candidates d roots names ++ candidates d more names := by
  simp [candidates]

theorem candidates_some (d : Disk) (roots : List Path) (names : List String) :
    candidates d roots (some names) =
      (candidates d roots none).filter fun c => names.contains c.name := by
  unfold candidates
  rw [List.filter_filterMap]
  refine List.filterMap_congr fun dir _ => ?_
  cases dir.fileName? with
  | none => rfl
  | some name => simp [passes, Option.filter]

/-- Each candidate has the name of its directory. -/
theorem fileName?_of_mem_candidates {d : Disk} {roots : List Path} {names : Option (List String)}
    {c : Candidate} (member : c ∈ candidates d roots names) : c.dir.fileName? = some c.name := by
  obtain ⟨dir, -, made⟩ := List.mem_filterMap.mp member
  split at made
  · rename_i name last
    split at made
    · obtain rfl := Option.some.inj made
      exact last
    · cases made
  · cases made

/-- Names that agree on the candidates filter alike. -/
theorem candidates_congr {d : Disk} {roots : List Path} {names names' : List String}
    (agree : ∀ c ∈ candidates d roots none, c.name ∈ names ↔ c.name ∈ names') :
    candidates d roots (some names) = candidates d roots (some names') := by
  rw [candidates_some, candidates_some]
  refine List.filter_congr fun c member => ?_
  rw [Bool.eq_iff_iff, List.contains_iff_mem, List.contains_iff_mem]
  exact agree c member

/-- A discovery is given by its candidates. -/
theorem discover_congr (r : Registry) {d : Disk} {roots roots' : List Path}
    {names names' : Option (List String)}
    (same : candidates d roots names = candidates d roots' names') :
    r.discover d roots names = r.discover d roots' names' := by
  rw [discover, discover, same]

/-! ### Names of modules -/

/-- Each factory makes what it is registered for: from a directory of that name, a module of that
name. -/
def KeepsNames (made : List (String × Factory)) : Prop :=
  ∀ x ∈ made, ∀ dir : Path, dir.fileName? = some x.1 → (x.2 dir).name = x.1

/-- A candidate becomes a module of its name. -/
theorem Becomes.name_eq {made : List (String × Factory)} {librarySuffix : Bool} {d : Disk}
    {c : Candidate} {m : Module} (becomes : Becomes made librarySuffix d c m)
    (keeps : KeepsNames made) (last : c.dir.fileName? = some c.name) : m.name = c.name := by
  cases becomes with
  | factory registered =>
    obtain ⟨x, member, named, rfl⟩ := exists_of_lastFor? registered
    rw [← named]
    exact keeps x member c.dir (named ▸ last)
  | specialized => simp [Module.name, last]
  | plain => simp [Module.name, Module.plain, last]

section

variable {made : List (String × Factory)} {librarySuffix : Bool} {d : Disk} {roots : List Path}
  {ms : List Module}

/-- With a filter, a discovery gives the modules of those candidates that pass. -/
theorem result_discover_some
    (ok : ((ofRegistrations made librarySuffix).discover d roots none).result = .ok ms)
    (names : List String) :
    ((ofRegistrations made librarySuffix).discover d roots (some names)).result =
      .ok ((((candidates d roots none).zip ms).filter fun pair =>
        names.contains pair.1.name).map Prod.snd) := by
  rw [result_discover] at ok
  rw [result_discover, candidates_some, mapM_filter_eq_ok ok]

/-- If factories keep names, each module of a discovery has the name of its directory. -/
theorem name_eq_of_mem_zip {names : Option (List String)} (keeps : KeepsNames made)
    (ok : ((ofRegistrations made librarySuffix).discover d roots names).result = .ok ms) :
    ∀ pair ∈ (candidates d roots names).zip ms, pair.2.name = pair.1.name := by
  rw [result_discover, mapM_eq_ok_iff] at ok
  rintro ⟨c, m⟩ pair
  have becomes := result_build_eq_ok_iff.mp ((List.forall₂_iff_zip.mp ok).2 pair)
  exact becomes.name_eq keeps (fileName?_of_mem_candidates (List.of_mem_zip pair).1)

/-- The names of the modules tell what every filter leaves exactly if each module has the name of its
directory. -/
theorem forall_filter_iff
    (ok : ((ofRegistrations made librarySuffix).discover d roots none).result = .ok ms) :
    (∀ names : List String,
        ((ofRegistrations made librarySuffix).discover d roots (some names)).result =
          .ok (ms.filter fun m => names.contains m.name)) ↔
      ∀ pair ∈ (candidates d roots none).zip ms, pair.2.name = pair.1.name := by
  have each := ok
  rw [result_discover, mapM_eq_ok_iff] at each
  have all : ((candidates d roots none).zip ms).map Prod.snd = ms :=
    List.map_snd_zip (Nat.le_of_eq each.length_eq.symm)
  have byName (names : List String) : ms.filter (fun m => names.contains m.name) =
      (((candidates d roots none).zip ms).filter fun pair =>
        names.contains pair.2.name).map Prod.snd := by
    conv_lhs => rw [← all, List.filter_map]
    rfl
  simp only [result_discover_some ok, Except.ok.injEq, byName]
  constructor
  · intro alike pair member
    have kept : pair.2 ∈ (((candidates d roots none).zip ms).filter fun other =>
        [pair.1.name].contains other.1.name).map Prod.snd :=
      List.mem_map_of_mem (List.mem_filter.mpr ⟨member, by simp⟩)
    rw [alike] at kept
    obtain ⟨other, passed, same⟩ := List.mem_map.mp kept
    have named := (List.mem_filter.mp passed).2
    rw [same] at named
    simpa using named
  · intro named names
    rw [List.filter_congr fun pair member => by rw [← named pair member]]

end

/-! ### Main statement -/

/-- A discovery below two lists of roots fails as the one below the first does, or else as the one
below the second does, or gives the modules of both. With a filter, a discovery that succeeds
without it gives the modules of those candidates that pass. These are the modules whose own names
pass, for every filter, exactly if each module has the name of its directory, as it has if factories
keep names. So for a project entry it matters of the names in it only which of the candidates they
name. -/
theorem discovery_distributes (d : Disk) :
    (∀ (r : Registry) (roots more : List Path) (names : Option (List String)),
      (r.discover d (roots ++ more) names).result =
        match (r.discover d roots names).result, (r.discover d more names).result with
        | .error e, _ => .error e
        | .ok _, .error e => .error e
        | .ok ms, .ok ms' => .ok (ms ++ ms')) ∧
    (∀ (made : List (String × Factory)) (librarySuffix : Bool) (roots : List Path)
      (ms : List Module),
      ((ofRegistrations made librarySuffix).discover d roots none).result = .ok ms →
      (∀ names : List String,
        ((ofRegistrations made librarySuffix).discover d roots (some names)).result =
          .ok ((((candidates d roots none).zip ms).filter fun pair =>
            names.contains pair.1.name).map Prod.snd) ∧
        (KeepsNames made →
          ((ofRegistrations made librarySuffix).discover d roots (some names)).result =
            .ok (ms.filter fun m => names.contains m.name))) ∧
      ((∀ names : List String,
        ((ofRegistrations made librarySuffix).discover d roots (some names)).result =
          .ok (ms.filter fun m => names.contains m.name)) ↔
        ∀ pair ∈ (candidates d roots none).zip ms, pair.2.name = pair.1.name)) ∧
    (∀ (p : ProjectEntry) (root : Path) (tool : String) (definedAt : Option String)
      (names names' : List String),
      (∀ c ∈ candidates d (p.modules.map root.resolve) none, c.name ∈ names ↔ c.name ∈ names') →
      { p with names := some names }.toProject d root tool definedAt =
        { p with names := some names' }.toProject d root tool definedAt) := by
  refine ⟨fun r roots more names => ?roots, fun made librarySuffix roots ms ok =>
    ⟨fun names => ⟨result_discover_some ok names, fun keeps => ?filter⟩, forall_filter_iff ok⟩,
    fun p root tool definedAt names names' agree => ?entry⟩
  case roots =>
    rw [result_discover, result_discover, result_discover, candidates_append, List.mapM_append]
    cases (candidates d roots names).mapM fun c => (r.build d c).result with
    | error e => rfl
    | ok ms => cases (candidates d more names).mapM fun c => (r.build d c).result <;> rfl
  case filter =>
    exact (forall_filter_iff ok).mpr (name_eq_of_mem_zip keeps ok) names
  case entry =>
    simp only [ProjectEntry.toProject, discover_congr _ (candidates_congr agree)]

/-! ### A name that comes twice -/

/-- A disk with a directory below each of three roots. -/
def shelves : Disk where
  entries := [(["a"], .directory), (["a", "fifo"], .directory), (["b"], .directory),
    (["b", "fifo"], .directory), (["c"], .directory), (["c", "uart"], .directory)]
  distinct := by decide
  cwd := []

def registered : List (String × Factory) :=
  [("uart", fun dir => .plain dir true)]

def shelved (names : List String) : ProjectEntry :=
  { name := "p", part := "x", modules := [⟨"b"⟩, ⟨"c"⟩], names := some names }

/-- The filter keeps both modules of one name, and it does not matter how often and beside which
unknown names the name is listed. -/
theorem shelves_filtered :
    ((ofRegistrations registered false).discover shelves [⟨"/a"⟩, ⟨"/b"⟩, ⟨"/c"⟩] none).result =
        .ok [.plain ⟨"/a/fifo"⟩ false, .plain ⟨"/b/fifo"⟩ false, .plain ⟨"/c/uart"⟩ true] ∧
      ((ofRegistrations registered false).discover shelves [⟨"/a"⟩, ⟨"/b"⟩, ⟨"/c"⟩]
        (some ["fifo", "fifo"])).result =
          .ok [.plain ⟨"/a/fifo"⟩ false, .plain ⟨"/b/fifo"⟩ false] ∧
      (shelved ["other", "fifo", "fifo"]).toProject shelves ⟨"/"⟩ "vivado" none =
        (shelved ["fifo"]).toProject shelves ⟨"/"⟩ "vivado" none := by
  have found : ((ofRegistrations registered false).discover shelves [⟨"/a"⟩, ⟨"/b"⟩, ⟨"/c"⟩]
      none).result =
      .ok [.plain ⟨"/a/fifo"⟩ false, .plain ⟨"/b/fifo"⟩ false, .plain ⟨"/c/uart"⟩ true] :=
    eq_ok_of_toOption (by decide +kernel)
  have keeps : KeepsNames registered := by
    intro x member dir last
    obtain rfl := List.mem_singleton.mp member
    simp [Module.name, Module.plain, last]
  obtain ⟨-, filter, entry⟩ := discovery_distributes shelves
  obtain ⟨kept, -⟩ := filter registered false _ _ found
  refine ⟨found, ((kept ["fifo", "fifo"]).2 keeps).trans (by rfl), ?_⟩
  exact entry (shelved []) ⟨"/"⟩ "vivado" none _ _ (by decide +kernel)

/-! ### Factories that do not keep names -/

/-- A disk with a directory below each of two roots, and another one in each of these. -/
def boxes : Disk where
  entries := [(["a"], .directory), (["a", "fifo"], .directory), (["a", "fifo", "rtl"], .directory),
    (["b"], .directory), (["b", "uart"], .directory), (["b", "uart", "rtl"], .directory)]
  distinct := by decide
  cwd := []

/-- Factories that go down one more directory. -/
def unpacking : List (String × Factory) :=
  [("fifo", fun dir => .plain (dir.child "rtl") false),
    ("uart", fun dir => .plain (dir.child "rtl") false)]

/-- The filter keeps a module whose own name is not in it. -/
theorem boxes_not_filtered :
    let discover := (ofRegistrations unpacking false).discover boxes [⟨"/a"⟩]
    (discover none).result = .ok [.plain ⟨"/a/fifo/rtl"⟩ false] ∧
      (discover (some ["fifo"])).result = .ok [.plain ⟨"/a/fifo/rtl"⟩ false] ∧
      (discover (some ["fifo"])).result ≠
        .ok ([Module.plain ⟨"/a/fifo/rtl"⟩ false].filter fun m => ["fifo"].contains m.name) := by
  intro discover
  have found : (discover none).result = .ok [.plain ⟨"/a/fifo/rtl"⟩ false] :=
    eq_ok_of_toOption (by decide +kernel)
  have kept : (discover (some ["fifo"])).result = .ok [.plain ⟨"/a/fifo/rtl"⟩ false] :=
    eq_ok_of_toOption (by decide +kernel)
  refine ⟨found, kept, ?_⟩
  rw [kept]
  have none : [Module.plain ⟨"/a/fifo/rtl"⟩ false].filter (fun m => ["fifo"].contains m.name) =
      [] := by
    decide +kernel
  rw [none]
  simp

end Registry

end FpgaProject
