import Mathlib.Data.Finset.Card
import FpgaProject.Proofs.Registry.Roots

/-!
Names that come again.

A discovery comes to its candidates one after another, up to the first one that fails (`Reaches`).
It warns of those that have the name of an earlier one (`repeats`), and of nothing else
(`exists_reaches`). The names that were seen before are those of the candidates before, whatever
root they stand below, so a root that is listed again is warned of as a whole. These are the names
of the directories: two modules of one name from directories of different names, as factories may
make them, are not warned of (`boxes_not_counted`). Main statement: `duplicates_warned`.
-/

namespace FpgaProject

/-! ### Warnings -/

namespace Report

variable {α β : Type}

def warned (r : Report α) : List Event :=
  r.events.filter (·.level = .warn)

theorem warned_bind_of_ok {r : Report α} {a : α} (ok : r.result = .ok a) (f : α → Report β) :
    (r >>= f).warned = r.warned ++ (f a).warned := by
  simp [bind_of_ok ok, warned]

theorem warned_bind_of_error {r : Report α} {e : Error} (failed : r.result = .error e)
    (f : α → Report β) : (r >>= f).warned = r.warned := by
  simp [bind_of_error failed, warned]

theorem warned_bind_pure (r : Report α) (g : α → β) :
    (r >>= fun a => pure (g a)).warned = r.warned := by
  cases ended : r.result with
  | error e => rw [warned_bind_of_error ended]
  | ok a =>
    rw [warned_bind_of_ok ended]
    exact List.append_nil _

theorem warned_after (events : List Event) (r : Report α) :
    (r.after events).warned = events.filter (·.level = .warn) ++ r.warned := by
  simp [after, warned]

end Report

namespace Registry

/-! ### Candidates whose name comes again -/

/-- The warning for a candidate: its name and its own directory. -/
def Candidate.warning (c : Candidate) : Event :=
  .duplicateModule c.name c.dir

/-- Those of some candidates whose name is that of one before them, which may be one of others that
came first. -/
def repeatsAfter (first cs : List Candidate) : List Candidate :=
  (cs.zipIdx.filter fun x => (first ++ cs.take x.2).any (·.name = x.1.name)).map Prod.fst

/-- The candidates whose name is that of an earlier one. -/
def repeats (cs : List Candidate) : List Candidate :=
  (cs.zipIdx.filter fun x => (cs.take x.2).any (·.name = x.1.name)).map Prod.fst

section

variable {first : List Candidate}

theorem repeatsAfter_nil (cs : List Candidate) : repeatsAfter [] cs = repeats cs := rfl

theorem repeatsAfter_cons (c : Candidate) (cs : List Candidate) :
    repeatsAfter first (c :: cs) =
      (if first.any (·.name = c.name) then [c] else []) ++ repeatsAfter (first ++ [c]) cs := by
  have later : (cs.zipIdx 1).filter
        (fun x => (first ++ (c :: cs).take x.2).any (·.name = x.1.name)) =
      (cs.zipIdx.filter fun x => (first ++ [c] ++ cs.take x.2).any (·.name = x.1.name)).map
        fun x => (x.1, x.2 + 1) := by
    rw [List.zipIdx_succ, List.filter_map]
    simp [Function.comp_def]
  rw [repeatsAfter, List.zipIdx_cons, List.filter_cons, Nat.zero_add, later, repeatsAfter]
  simp only [List.take_zero, List.append_nil]
  split <;> simp [List.map_map, Function.comp_def]

theorem repeatsAfter_append (as bs : List Candidate) :
    repeatsAfter first (as ++ bs) = repeatsAfter first as ++ repeatsAfter (first ++ as) bs := by
  induction as generalizing first with
  | nil => simp [repeatsAfter]
  | cons a as ih =>
    rw [List.cons_append, repeatsAfter_cons, ih, repeatsAfter_cons, List.append_assoc,
      List.append_assoc, List.singleton_append]

/-- Candidates of which each has come before are repeated as a whole. -/
theorem repeatsAfter_of_subset {cs : List Candidate} (known : cs ⊆ first) :
    repeatsAfter first cs = cs := by
  have all : cs.zipIdx.filter (fun x => (first ++ cs.take x.2).any (·.name = x.1.name)) =
      cs.zipIdx := by
    refine List.filter_eq_self.mpr fun x member => ?_
    refine List.any_eq_true.mpr ⟨x.1, List.mem_append_left _ (known ?_), by simp⟩
    exact List.fst_mem_of_mem_zipIdx member
  rw [repeatsAfter, all, List.zipIdx_map_fst]

/-- Each candidate is repeated or brings a name of its own. -/
theorem length_repeatsAfter (first cs : List Candidate) :
    (repeatsAfter first cs).length + ((first ++ cs).map Candidate.name).toFinset.card =
      cs.length + (first.map Candidate.name).toFinset.card := by
  induction cs generalizing first with
  | nil => simp [repeatsAfter]
  | cons c cs ih =>
    have rest := ih (first ++ [c])
    have own : ((first ++ [c]).map Candidate.name).toFinset =
        insert c.name (first.map Candidate.name).toFinset := by
      ext name
      simp
    rw [List.append_assoc, List.singleton_append, own] at rest
    rw [repeatsAfter_cons, List.length_append, List.length_cons]
    by_cases known : first.any (·.name = c.name) = true
    · have seen : c.name ∈ (first.map Candidate.name).toFinset := by
        simpa using known
      rw [Finset.insert_eq_of_mem seen] at rest
      rw [if_pos known, List.length_singleton]
      omega
    · have new : c.name ∉ (first.map Candidate.name).toFinset := by
        simpa using known
      rw [Finset.card_insert_of_notMem new] at rest
      rw [if_neg known, List.length_nil]
      omega

theorem repeats_subset (cs : List Candidate) : repeats cs ⊆ cs := by
  intro c member
  obtain ⟨x, repeated, rfl⟩ := List.mem_map.mp member
  exact List.fst_mem_of_mem_zipIdx (List.mem_of_mem_filter repeated)

theorem length_repeats (cs : List Candidate) :
    (repeats cs).length + (cs.map Candidate.name).toFinset.card = cs.length := by
  simpa [repeatsAfter_nil] using length_repeatsAfter [] cs

end

/-! ### How far a discovery comes -/

section

variable {made : List (String × Factory)} {librarySuffix : Bool} {d : Disk}

/-- The candidates that a discovery comes to: all of them, or those up to the first that fails. -/
inductive Reaches (made : List (String × Factory)) (d : Disk) (cs : List Candidate) :
    List Candidate → Prop where
  | all : (∀ c ∈ cs, ∀ e, ¬ Fails made d c e) → Reaches made d cs cs
  | stopped {before after : List Candidate} {c : Candidate} {e : Error} :
      cs = before ++ c :: after → (∀ b ∈ before, ∀ e', ¬ Fails made d b e') →
      Fails made d c e → Reaches made d cs (before ++ [c])

theorem Reaches.cons {c : Candidate} {cs reached : List Candidate}
    (sound : ∀ e, ¬ Fails made d c e) (rest : Reaches made d cs reached) :
    Reaches made d (c :: cs) (c :: reached) := by
  cases rest with
  | all each => exact .all (List.forall_mem_cons.mpr ⟨sound, each⟩)
  | stopped split each fails =>
    exact .stopped (congrArg (c :: ·) split) (List.forall_mem_cons.mpr ⟨sound, each⟩) fails

/-- Candidates that do not fail are all reached, and some of the others may be after them. -/
theorem Reaches.append_inv {as bs reached : List Candidate}
    (sound : ∀ a ∈ as, ∀ e, ¬ Fails made d a e) (reaches : Reaches made d (as ++ bs) reached) :
    ∃ rest, reached = as ++ rest := by
  cases reaches with
  | all => exact ⟨bs, rfl⟩
  | @stopped before after c e split _ fails =>
    rcases List.append_eq_append_iff.mp split with ⟨rest, rfl, -⟩ | ⟨rest, rfl, behind⟩
    · exact ⟨rest ++ [c], List.append_assoc ..⟩
    · cases rest with
      | nil => exact ⟨[c], by simp⟩
      | cons r rest =>
        obtain ⟨rfl, -⟩ := List.cons.inj behind
        exact absurd fails (sound c (by simp) e)

theorem Reaches.eq_of_sound {cs reached : List Candidate}
    (sound : ∀ c ∈ cs, ∀ e, ¬ Fails made d c e) (reaches : Reaches made d cs reached) :
    reached = cs := by
  cases reaches with
  | all => rfl
  | stopped split _ fails => exact absurd fails (sound _ (by simp [split]) _)

theorem Reaches.subset {cs reached : List Candidate} (reaches : Reaches made d cs reached) :
    reached ⊆ cs := by
  cases reaches with
  | all => exact List.Subset.refl _
  | @stopped before after c e split =>
    rw [split]
    exact List.append_subset.mpr
      ⟨List.subset_append_left _ _, List.subset_append_of_subset_right _ (by simp)⟩

/-! ### What a discovery warns of -/

/-- Making a module warns of nothing by itself. -/
theorem warned_build (r : Registry) (c : Candidate) : (r.build d c).warned = [] := by
  unfold build
  split
  · rfl
  · dsimp only
    split <;> rfl

/-- The names that were seen are those of the candidates that came first. -/
def Seen (seen : List String) (first : List Candidate) : Prop :=
  ∀ name, seen.contains name = first.any (·.name = name)

theorem Seen.concat {seen : List String} {first : List Candidate} (known : Seen seen first)
    (c : Candidate) : Seen (c.name :: seen) (first ++ [c]) := by
  intro name
  have own : (name == c.name) = [c].any (·.name = name) := by
    rw [List.any_cons, List.any_nil, Bool.or_false, Bool.eq_iff_iff, beq_iff_eq, decide_eq_true_eq]
    exact eq_comm
  rw [List.contains_cons, known name, List.any_append, Bool.or_comm, own]

theorem filter_warnings {seen : List String} {first : List Candidate} (known : Seen seen first)
    (c : Candidate) : (warnings seen c).filter (·.level = .warn) =
      (if first.any (·.name = c.name) then [c] else []).map Candidate.warning := by
  rw [warnings, known c.name]
  split <;> rfl

/-- Of the candidates that are reached, those are warned of whose name has come before. -/
theorem exists_reaches (made : List (String × Factory)) (librarySuffix : Bool) (d : Disk)
    {seen : List String} {first : List Candidate} (known : Seen seen first)
    (cs : List Candidate) : ∃ reached, Reaches made d cs reached ∧
      ((ofRegistrations made librarySuffix).buildAll d seen cs).warned =
        (repeatsAfter first reached).map Candidate.warning := by
  induction cs generalizing seen first with
  | nil => exact ⟨[], .all (by simp), rfl⟩
  | cons c cs ih =>
    let built := ((ofRegistrations made librarySuffix).build d c).after (warnings seen c)
    have here : built.warned =
        (if first.any (·.name = c.name) then [c] else []).map Candidate.warning := by
      rw [Report.warned_after, warned_build, List.append_nil, filter_warnings known]
    rw [buildAll]
    cases outcome : ((ofRegistrations made librarySuffix).build d c).result with
    | error e =>
      have stopped : Reaches made d (c :: cs) ([] ++ [c]) :=
        .stopped rfl (by simp) (result_build_eq_error_iff.mp outcome)
      refine ⟨[c], stopped, ?_⟩
      rw [Report.warned_bind_of_error (r := built) outcome, here, repeatsAfter_cons]
      simp [repeatsAfter]
    | ok m =>
      obtain ⟨reached, reaches, rest⟩ := ih (known.concat c)
      have sound := exists_becomes_iff.mp ⟨m, outcome⟩
      refine ⟨c :: reached, reaches.cons sound, ?_⟩
      rw [Report.warned_bind_of_ok (r := built) outcome, here, Report.warned_bind_pure, rest,
        repeatsAfter_cons, List.map_append]

variable {roots : List Path} {names : Option (List String)}

theorem exists_reaches_discover (made : List (String × Factory)) (librarySuffix : Bool) (d : Disk)
    (roots : List Path) (names : Option (List String)) :
    ∃ reached, Reaches made d (candidates d roots names) reached ∧
      ((ofRegistrations made librarySuffix).discover d roots names).warned =
        (repeats reached).map Candidate.warning := by
  obtain ⟨reached, reaches, all⟩ := exists_reaches made librarySuffix d
    (show Seen [] [] from fun _ => rfl) (candidates d roots names)
  refine ⟨reached, reaches, ?_⟩
  rw [← repeatsAfter_nil, ← all, discover]
  cases ended : ((ofRegistrations made librarySuffix).buildAll d []
      (candidates d roots names)).result with
  | error e => rw [Report.warned_bind_of_error ended]
  | ok ms =>
    rw [Report.warned_bind_of_ok ended]
    exact List.append_nil _

/-- No candidate of a discovery that succeeds fails. -/
theorem sound_of_discover {ms : List Module}
    (ok : ((ofRegistrations made librarySuffix).discover d roots names).result = .ok ms) :
    ∀ c ∈ candidates d roots names, ∀ e, ¬ Fails made d c e := by
  rw [result_discover] at ok
  exact fun c member => exists_becomes_iff.mp (exists_of_mem_of_mapM_eq_ok ok c member)

/-- A discovery that succeeds warns of all its repeated candidates. -/
theorem warned_discover (sound : ∀ c ∈ candidates d roots names, ∀ e, ¬ Fails made d c e) :
    ((ofRegistrations made librarySuffix).discover d roots names).warned =
      (repeats (candidates d roots names)).map Candidate.warning := by
  obtain ⟨reached, reaches, all⟩ := exists_reaches_discover made librarySuffix d roots names
  rw [all, reaches.eq_of_sound sound]

/-- If factories keep names, the modules of a discovery are called as its candidates are. -/
theorem names_of_discover (keeps : KeepsNames made) {ms : List Module}
    (ok : ((ofRegistrations made librarySuffix).discover d roots names).result = .ok ms) :
    ms.map Module.name = (candidates d roots names).map Candidate.name := by
  have named := name_eq_of_mem_zip keeps ok
  rw [result_discover, mapM_eq_ok_iff] at ok
  have left := List.map_fst_zip (Nat.le_of_eq ok.length_eq)
  have right := List.map_snd_zip (Nat.le_of_eq ok.length_eq.symm)
  calc ms.map Module.name
    _ = ((candidates d roots names).zip ms).map fun pair => pair.2.name := by
      conv_lhs => rw [← right, List.map_map]
      rfl
    _ = ((candidates d roots names).zip ms).map fun pair => pair.1.name := List.map_congr_left named
    _ = (candidates d roots names).map Candidate.name := by
      conv_rhs => rw [← left, List.map_map]
      rfl

theorem passes_of_mem_candidates {c : Candidate} (member : c ∈ candidates d roots names) :
    passes names c.name = true := by
  cases names with
  | none => rfl
  | some list =>
    rw [candidates_some] at member
    exact (List.mem_filter.mp member).2

/-- The candidates below one of the roots are among those below all of them. -/
theorem candidates_subset (d : Disk) (names : Option (List String)) {root : Path}
    (listed : root ∈ roots) :
    candidates d [root] names ⊆ candidates d roots names := by
  obtain ⟨before, after, rfl⟩ := List.append_of_mem listed
  rw [candidates_append, ← List.singleton_append (l := after), candidates_append]
  exact fun c member => List.mem_append_right _ (List.mem_append_left _ member)

/-- A root that has been listed is warned of as a whole when it is listed again. -/
theorem exists_warned_again {root : Path} (listed : root ∈ roots)
    (sound : ∀ c ∈ candidates d roots names, ∀ e, ¬ Fails made d c e) (more : List Path) :
    ∃ rest, ((ofRegistrations made librarySuffix).discover d (roots ++ root :: more) names).warned =
      (repeats (candidates d roots names)).map Candidate.warning ++
        (candidates d [root] names).map Candidate.warning ++ rest := by
  obtain ⟨reached, reaches, all⟩ := exists_reaches_discover made librarySuffix d
    (roots ++ root :: more) names
  have known := candidates_subset d names listed
  rw [candidates_append, ← List.singleton_append, candidates_append, ← List.append_assoc] at reaches
  obtain ⟨rest, rfl⟩ := reaches.append_inv fun c member =>
    (List.mem_append.mp member).elim (sound c) fun again => sound c (known again)
  rw [all, ← repeatsAfter_nil, repeatsAfter_append, repeatsAfter_append, List.nil_append,
    repeatsAfter_nil, repeatsAfter_of_subset known, List.map_append, List.map_append]
  exact ⟨_, rfl⟩

/-! ### Main statement -/

/-- A discovery warns, in order, of each candidate that it comes to whose name is that of an earlier
one, and of nothing else; the candidates are the directories below the roots whose names pass. So if
it succeeds, each of its modules is warned of or is the first that is found under its name, which is
its own name too if factories keep names, and a root that has been listed before is warned of as a
whole. -/
theorem duplicates_warned (made : List (String × Factory)) (librarySuffix : Bool) (d : Disk)
    (roots : List Path) (names : Option (List String)) :
    let r := ofRegistrations made librarySuffix
    let found := r.discover d roots names
    let cs := candidates d roots names
    (∃ reached, Reaches made d cs reached ∧
      found.warned = (repeats reached).map Candidate.warning) ∧
    (∀ ms, found.result = .ok ms →
      found.warned.length + (cs.map Candidate.name).toFinset.card = ms.length ∧
      (KeepsNames made →
        found.warned.length + (ms.map Module.name).toFinset.card = ms.length)) ∧
    (∀ name dir, .duplicateModule name dir ∈ found.events →
      passes names name = true ∧ dir.fileName? = some name) ∧
    (∀ root ∈ roots, (∃ ms, found.result = .ok ms) → ∀ more, ∃ rest,
      (r.discover d (roots ++ root :: more) names).warned =
        found.warned ++ (candidates d [root] names).map Candidate.warning ++ rest) ∧
    (d.Sound → ∃ listed, List.Forall₂ (Enumerates d) roots listed ∧
      cs = listed.flatten.filter fun c => passes names c.name) := by
  intro r found cs
  refine ⟨exists_reaches_discover made librarySuffix d roots names, fun ms ok => ?counted,
    fun name dir said => ?kept, ?again, ?enumerated⟩
  case counted =>
    have all : found.warned = (repeats cs).map Candidate.warning :=
      warned_discover (sound_of_discover ok)
    have each : cs.length = ms.length := by
      have made := ok
      rw [result_discover, mapM_eq_ok_iff] at made
      exact made.length_eq
    have counted : found.warned.length + (cs.map Candidate.name).toFinset.card = ms.length := by
      rw [all, List.length_map, length_repeats, each]
    exact ⟨counted, fun keeps => by rw [names_of_discover keeps ok, counted]⟩
  case kept =>
    obtain ⟨reached, reaches, all⟩ := exists_reaches_discover made librarySuffix d roots names
    have warned : .duplicateModule name dir ∈ (repeats reached).map Candidate.warning :=
      all ▸ List.mem_filter.mpr ⟨said, rfl⟩
    obtain ⟨c, repeated, same⟩ := List.mem_map.mp warned
    obtain ⟨rfl, rfl⟩ := Event.duplicateModule.inj same
    have member := reaches.subset (repeats_subset reached repeated)
    exact ⟨passes_of_mem_candidates member, fileName?_of_mem_candidates member⟩
  case again =>
    rintro root listed ⟨ms, ok⟩ more
    have sound := sound_of_discover ok
    rw [warned_discover sound]
    exact exists_warned_again listed sound more
  case enumerated =>
    intro sound
    obtain ⟨listed, each⟩ := exists_forall₂_enumerates sound roots
    exact ⟨listed, each, candidates_eq each names⟩

/-- Of two modules of one name the second is warned of, and again when its root is listed again. -/
theorem shelves_warned :
    let r := ofRegistrations registered false
    let roots : List Path := [⟨"/a"⟩, ⟨"/b"⟩, ⟨"/c"⟩]
    let found := r.discover shelves roots none
    found.result =
        .ok [.plain ⟨"/a/fifo"⟩ false, .plain ⟨"/b/fifo"⟩ false, .plain ⟨"/c/uart"⟩ true] ∧
      found.warned.length + 2 = 3 ∧
      (∃ rest, (r.discover shelves (roots ++ [⟨"/b"⟩]) none).warned =
        found.warned ++ [.duplicateModule "fifo" ⟨"/b/fifo"⟩] ++ rest) ∧
      ∃ listed, List.Forall₂ (Enumerates shelves) roots listed ∧ listed.flatten.length = 3 := by
  intro r roots found
  have ok : found.result =
      .ok [.plain ⟨"/a/fifo"⟩ false, .plain ⟨"/b/fifo"⟩ false, .plain ⟨"/c/uart"⟩ true] :=
    eq_ok_of_toOption (by decide +kernel)
  have keeps : KeepsNames registered := by
    intro x member dir last
    obtain rfl := List.mem_singleton.mp member
    simp [Module.name, Module.plain, last]
  have sound : shelves.Sound := .of_entries (by decide +kernel) (by decide +kernel)
  have again : candidates shelves [⟨"/b"⟩] none = [⟨"fifo", ⟨"/b/fifo"⟩⟩] := by decide +kernel
  have three : (candidates shelves roots none).length = 3 := by decide +kernel
  have names : [Module.plain ⟨"/a/fifo"⟩ false, .plain ⟨"/b/fifo"⟩ false,
      .plain ⟨"/c/uart"⟩ true].map Module.name = ["fifo", "fifo", "uart"] := by
    decide +kernel
  obtain ⟨-, counted, -, listed, enumerated⟩ :=
    duplicates_warned registered false shelves roots none
  refine ⟨ok, ?_, ?_, ?_⟩
  · have total := (counted _ ok).2 keeps
    rw [names] at total
    exact total
  · obtain ⟨rest, warned⟩ := listed ⟨"/b"⟩ (by simp [roots]) ⟨_, ok⟩ []
    rw [again] at warned
    exact ⟨rest, warned⟩
  · obtain ⟨dirs, each, all⟩ := enumerated sound
    refine ⟨dirs, each, ?_⟩
    have whole : dirs.flatten.filter (fun c => passes none c.name) = dirs.flatten :=
      List.filter_eq_self.mpr fun _ _ => rfl
    rwa [all, whole] at three

/-- Two modules of one name that stand in directories of different names are not warned of. -/
theorem boxes_not_counted :
    let found := (ofRegistrations unpacking false).discover boxes [⟨"/a"⟩, ⟨"/b"⟩] none
    let ms : List Module := [.plain ⟨"/a/fifo/rtl"⟩ false, .plain ⟨"/b/uart/rtl"⟩ false]
    found.result = .ok ms ∧ found.warned = [] ∧
      found.warned.length + (ms.map Module.name).toFinset.card ≠ ms.length := by
  intro found ms
  have ok : found.result = .ok ms := eq_ok_of_toOption (by decide +kernel)
  have silent : found.warned = [] := by decide +kernel
  have names : ms.map Module.name = ["rtl", "rtl"] := by decide +kernel
  refine ⟨ok, silent, ?_⟩
  rw [silent, names]
  decide

end

end Registry

end FpgaProject
