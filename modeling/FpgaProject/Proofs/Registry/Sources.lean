import Mathlib.Data.List.Sort
import FpgaProject.Proofs.Disk.Opening
import FpgaProject.Proofs.Registry.Discovery

/-!
The source files of the modules that a discovery gives.

The files for synthesis are the source files directly in the directory of the module, each once and
in the order of their names, and those for simulation are the same ones followed by what stands in
`test` (`discovered_sources`). That is so whatever the path of the module looks like, as it has been
written by a walk; but a file is left out without a word if its path is too long to be looked up
(`left_out_of_sources`). On two disks, the same files are listed if they are held on both, whatever
is in them and whatever stands around them (`sourcesIn_congr`).
-/

namespace FpgaProject

/-! ### Extensions -/

namespace Path

theorem cutAtLastDot_append {ext : List Char} (last : '.' ∉ ext) (stem : List Char) :
    cutAtLastDot (stem ++ '.' :: ext) =
      if stem = [] then ('.' :: ext, none) else (stem, some ext) := by
  have after : ((stem ++ '.' :: ext).reverse.takeWhile (· ≠ '.')).reverse = ext := by
    have free : ∀ c ∈ ext.reverse, decide (c ≠ '.') = true := fun c hc => by
      simpa using fun dot : c = '.' => last (dot ▸ List.mem_reverse.mp hc)
    rw [List.reverse_append, List.reverse_cons, List.append_assoc, List.singleton_append,
      List.takeWhile_append_of_pos free]
    simp
  have before : (stem ++ '.' :: ext).take ((stem ++ '.' :: ext).length - ext.length - 1) = stem := by
    have length : (stem ++ '.' :: ext).length - ext.length - 1 = stem.length := by
      simp only [List.length_append, List.length_cons]
      omega
    rw [length, List.take_left]
  unfold cutAtLastDot
  simp only [after, before]
  by_cases empty : stem = []
  · simp [empty]
  · simp [empty]

/-- A name is taken apart at its last dot if something stands before that. -/
theorem cutAtLastDot_eq_some_iff {name ext : List Char} :
    (cutAtLastDot name).2 = some ext ↔
      ∃ stem, stem ≠ [] ∧ name = stem ++ '.' :: ext ∧ '.' ∉ ext := by
  constructor
  · intro cut
    have dotted : '.' ∈ name := by
      by_contra free
      simp [cutAtLastDot, free] at cut
    obtain ⟨front, back, split, last⟩ := List.eq_append_cons_of_mem (List.mem_reverse.mpr dotted)
    have whole : name = back.reverse ++ '.' :: front.reverse := by
      simpa using congrArg List.reverse split
    have last' : '.' ∉ front.reverse := by simpa using last
    rw [whole, cutAtLastDot_append last'] at cut
    split at cut
    · cases cut
    · rename_i present
      obtain rfl := Option.some.inj cut
      exact ⟨back.reverse, present, whole, last'⟩
  · rintro ⟨stem, present, rfl, last⟩
    rw [cutAtLastDot_append last, if_neg present]

end Path

namespace Module

/-- Whether a name is that of a source file: it ends in a dot and `vhd` or `v`, ASCII case aside, and
something stands before that dot. -/
def IsSourceName (name : String) : Prop :=
  ∃ stem ext : List Char, stem ≠ [] ∧ name.toList = stem ++ '.' :: ext ∧
    ext.map Char.toLower ∈ [['v', 'h', 'd'], ['v']]

/-- A source file stands directly in a directory. -/
structure SourceAt (d : Disk) (l : Location) (name : String) : Prop where
  named : IsSourceName name
  file : ∃ contents executable, d.entryAt? (l ++ [name]) = some (.file contents executable)
  regular : d.isPipeAt (l ++ [name]) = false

/-- Paths give names in a directory behind its path: just those that are wanted, each once and in
order. -/
def Lists (dir : Path) (wanted : String → Prop) (files : List Path) : Prop :=
  ∃ names : List String, files = names.map dir.child ∧ names.Pairwise (· < ·) ∧
    ∀ name, name ∈ names ↔ wanted name

variable {d : Disk} {dir : Path} {l : Location} {name : String}

/-- The extensions of source files are compared in lower case. -/
theorem any_sourceExtensions (ext : List Char) :
    (sourceExtensions.any fun e => e.toList.map Char.toLower == ext.map Char.toLower) = true ↔
      ext.map Char.toLower ∈ [['v', 'h', 'd'], ['v']] := by
  have known : sourceExtensions.map (fun e => e.toList.map Char.toLower) =
      [['v', 'h', 'd'], ['v']] := by decide +kernel
  rw [← known, List.mem_map, List.any_eq_true]
  simp

theorem free_of_lowered {ext : List Char}
    (lowered : ext.map Char.toLower ∈ [['v', 'h', 'd'], ['v']]) : '.' ∉ ext := by
  intro dot
  have lowerDot : Char.toLower '.' = '.' := by decide
  have inside : '.' ∈ ext.map Char.toLower := lowerDot ▸ List.mem_map_of_mem dot
  rcases List.mem_pair.mp lowered with same | same <;> simp [same] at inside

theorem hasExtension_stepTo_iff (legal : Path.IsName name) (named : Disk.Named name)
    (at_ : Path) :
    (Disk.stepTo at_ name).hasExtension sourceExtensions = true ↔ IsSourceName name := by
  have last : (Disk.stepTo at_ name).extension? =
      (Path.cutAtLastDot name.toList).2.map String.ofList := by
    rw [Path.extension?, Disk.fileName?_stepTo legal named]
    rfl
  unfold Path.hasExtension IsSourceName
  rw [last]
  constructor
  · intro h
    cases cut : (Path.cutAtLastDot name.toList).2 with
    | none => simp [cut] at h
    | some ext =>
      obtain ⟨stem, present, whole, -⟩ := Path.cutAtLastDot_eq_some_iff.mp cut
      exact ⟨stem, ext, present, whole, (any_sourceExtensions ext).mp (by simpa [cut] using h)⟩
  · rintro ⟨stem, ext, present, whole, lowered⟩
    rw [Path.cutAtLastDot_eq_some_iff.mpr ⟨stem, present, whole, free_of_lowered lowered⟩]
    simpa using (any_sourceExtensions ext).mpr lowered

/-- What is seen as a file below a directory is a file there, unless the path cannot be looked up. -/
theorem isFile_stepTo_iff (sound : d.Sound) (found : d.locate dir = .ok l)
    (legal : Path.IsName name) (named : Disk.Named name) :
    d.isFile (Disk.stepTo dir name) = true ↔ Disk.textFault? (Disk.stepTo dir name) = none ∧
      (∃ contents executable, d.entryAt? (l ++ [name]) = some (.file contents executable)) ∧
      d.isPipeAt (l ++ [name]) = false := by
  constructor
  · intro seen
    cases arrived : d.locate (Disk.stepTo dir name) with
    | error f => simp [Disk.isFile, arrived] at seen
    | ok m =>
      have text := Disk.textFault?_of_locate arrived
      obtain ⟨rfl, present⟩ :=
        (Disk.locate_stepTo_named_iff sound found legal named text).mp arrived
      obtain ⟨e, there⟩ := Option.ne_none_iff_exists'.mp present
      rw [Disk.isFile, arrived] at seen
      cases e with
      | directory => simp [there, Entry.isDirectory] at seen
      | file contents executable =>
        exact ⟨text, ⟨contents, executable, there⟩, by simpa [there, Entry.isDirectory] using seen⟩
  · rintro ⟨text, ⟨contents, executable, there⟩, regular⟩
    have arrived := (Disk.locate_stepTo_named_iff sound found legal named text).mpr
      ⟨rfl, by simp [there]⟩
    simp [Disk.isFile, arrived, there, Entry.isDirectory, regular]

/-- A name in a directory passes the listing exactly if it is that of a source file there whose path
can be looked up. -/
theorem passes_iff (sound : d.Sound) (found : d.locate dir = .ok l) :
    (d.entryAt? (l ++ [name]) ≠ none ∧ d.isFile (Disk.stepTo dir name) = true ∧
        (Disk.stepTo dir name).hasExtension sourceExtensions = true) ↔
      SourceAt d l name ∧ Disk.textFault? (Disk.stepTo dir name) = none := by
  constructor
  · rintro ⟨present, seen, extension⟩
    obtain ⟨e, stands⟩ := Option.ne_none_iff_exists'.mp present
    obtain ⟨legal, named, -⟩ := sound.named _ _ _ stands
    obtain ⟨text, file, regular⟩ := (isFile_stepTo_iff sound found legal named).mp seen
    exact ⟨⟨(hasExtension_stepTo_iff legal named dir).mp extension, file, regular⟩, text⟩
  · rintro ⟨source, text⟩
    obtain ⟨contents, executable, stands⟩ := source.file
    obtain ⟨legal, named, -⟩ := sound.named _ _ _ stands
    have seen := (isFile_stepTo_iff sound found legal named).mpr
      ⟨text, source.file, source.regular⟩
    exact ⟨by simp [stands], seen, (hasExtension_stepTo_iff legal named dir).mpr source.named⟩

/-- What a listing gives and a check lets pass, if a name passes both exactly if it is meant and its
path can be looked up: the names that are meant in the directory that the listing reads, in order,
behind the path as the walk writes it. -/
theorem exists_names_listed (sound : d.Sound) (dir : Path) {wanted : String → Bool}
    {keep : Path → Bool} {meant : Location → String → Prop}
    (passes : ∀ l, d.locate (Disk.respelled dir) = .ok l → ∀ name,
      (d.entryAt? (l ++ [name]) ≠ none ∧ wanted name = true ∧
          keep (Disk.stepTo (Disk.respelled dir) name) = true) ↔
        meant l name ∧ Disk.textFault? (Disk.stepTo (Disk.respelled dir) name) = none) :
    ∃ names : List String,
      (d.list dir wanted).filter keep = names.map (Disk.stepTo (Disk.respelled dir)) ∧
      names.Pairwise (· < ·) ∧ ∀ name, name ∈ names ↔
        (∃ l, d.Opens dir l ∧ meant l name) ∧
          Disk.textFault? (Disk.stepTo (Disk.respelled dir) name) = none := by
  by_cases open_ : ∃ l, d.Opens dir l
  · obtain ⟨l, opens⟩ := open_
    have here : ∀ name, (∃ l, d.Opens dir l ∧ meant l name) ↔ meant l name := fun name =>
      ⟨fun ⟨m, opens', known⟩ => opens.unique opens' ▸ known, fun known => ⟨l, opens, known⟩⟩
    refine ⟨((d.names l).filter wanted).filter fun name =>
        keep (Disk.stepTo (Disk.respelled dir) name), ?_,
      (d.pairwise_names l).sublist (List.filter_sublist.trans List.filter_sublist), fun name => ?_⟩
    · rw [Disk.list_of_opens sound.cwdDirectory opens, List.filter_map]
      rfl
    · rw [here, ← passes l opens.found, List.mem_filter, List.mem_filter, Disk.mem_names_iff,
        and_assoc]
  · have closed := not_exists.mp open_
    refine ⟨[], ?_, .nil, fun name => iff_of_false List.not_mem_nil ?_⟩
    · rw [Disk.list_of_not_opens closed]
      rfl
    · rintro ⟨⟨l, opens, -⟩, -⟩
      exact closed l opens

/-- Under a path that a walk has written, what a listing gives is what is meant in the directory at
its place, behind the path, as far as it can be looked up. It does not matter whether there is such a
directory. -/
theorem lists_of_names (sound : d.Sound) (walked : dir.Walked) (here : d.place dir = l)
    (reached : Disk.textFault? dir = none → d.entryAt? l = some .directory → d.locate dir = .ok l)
    {meant : Location → String → Prop}
    (held : ∀ name, meant l name → d.entryAt? (l ++ [name]) ≠ none)
    {files : List Path} (listed : ∃ names : List String,
      files = names.map (Disk.stepTo (Disk.respelled dir)) ∧ names.Pairwise (· < ·) ∧
      ∀ name, name ∈ names ↔ (∃ l, d.Opens dir l ∧ meant l name) ∧
        Disk.textFault? (Disk.stepTo (Disk.respelled dir) name) = none) :
    Lists dir (fun name => meant l name ∧ Disk.textFault? (dir.child name) = none) files := by
  obtain ⟨notDot, given⟩ := walked.text_ne
  obtain ⟨names, files, ordered, listed⟩ := listed
  rw [walked.respelled_eq] at files listed
  refine ⟨names, files.trans (List.map_congr_left fun name _ => Disk.stepTo_of_ne notDot name),
    ordered, fun name => ?_⟩
  rw [listed, Disk.stepTo_of_ne notDot]
  refine and_congr_left fun text => ⟨?_, fun known => ?_⟩
  · rintro ⟨m, opens, known⟩
    obtain rfl : m = l :=
      (Disk.locate_eq_ok ((Disk.opens_iff_of_walked walked).mp opens).1).trans here
    exact known
  · obtain ⟨e, stands⟩ := Option.ne_none_iff_exists'.mp (held name known)
    obtain ⟨legal, -, -⟩ := sound.named _ _ _ stands
    have there := sound.inDirectory _ _ _ stands
    have found := reached (Disk.textFault?_of_child given legal text) there
    exact ⟨l, (Disk.opens_iff_of_walked walked).mpr ⟨found, there⟩, known⟩

/-- A source file stands directly in the directory that a listing of the path reads. -/
def HoldsSource (d : Disk) (dir : Path) (name : String) : Prop :=
  ∃ l, d.Opens dir l ∧ SourceAt d l name

/-- The source files at a path are those that it holds, behind the path as the walk writes it, as far
as their paths can be looked up. They come in the order of their names. -/
theorem exists_names_sourcesIn (sound : d.Sound) (dir : Path) :
    ∃ names : List String, sourcesIn d dir = names.map (Disk.stepTo (Disk.respelled dir)) ∧
      names.Pairwise (· < ·) ∧ ∀ name, name ∈ names ↔
        HoldsSource d dir name ∧ Disk.textFault? (Disk.stepTo (Disk.respelled dir) name) = none := by
  refine exists_names_listed sound dir fun l found name => ?_
  rw [← passes_iff sound found, Bool.and_eq_true]
  exact and_congr_right fun _ => and_iff_right rfl

/-- On two disks, a path has the same source files if it holds them on both. -/
theorem sourcesIn_congr {d' : Disk} (sound : d.Sound) (sound' : d'.Sound)
    (same : ∀ name, HoldsSource d dir name ↔ HoldsSource d' dir name) :
    sourcesIn d dir = sourcesIn d' dir := by
  obtain ⟨names, first, ordered, listed⟩ := exists_names_sourcesIn sound dir
  obtain ⟨names', second, ordered', listed'⟩ := exists_names_sourcesIn sound' dir
  have equal : names = names' := ordered.eq_of_mem_iff ordered' fun name => by
    rw [listed, listed', same]
  rw [first, second, equal]

/-- The source files in a directory are listed by their names, as far as their paths can be looked
up. It does not matter whether there is such a directory. -/
theorem lists_sourcesIn (sound : d.Sound) (walked : dir.Walked) (here : d.place dir = l)
    (reached : Disk.textFault? dir = none → d.entryAt? l = some .directory → d.locate dir = .ok l) :
    Lists dir (fun name => SourceAt d l name ∧ Disk.textFault? (dir.child name) = none)
      (sourcesIn d dir) := by
  refine lists_of_names sound walked here reached (fun name source => ?_)
    (exists_names_sourcesIn sound dir)
  obtain ⟨contents, executable, stands⟩ := source.file
  simp [stands]

/-- All that is wanted is listed exactly if all of it can be looked up. -/
theorem lists_all_iff {wanted : String → Prop} {files : List Path}
    (lists : Lists dir (fun name => wanted name ∧ Disk.textFault? (dir.child name) = none) files) :
    Lists dir wanted files ↔ ∀ name, wanted name → Disk.textFault? (dir.child name) = none := by
  obtain ⟨names, rfl, ordered, listed⟩ := lists
  constructor
  · rintro ⟨all, same, -, complete⟩ name source
    have member := List.mem_map_of_mem (f := dir.child) ((complete name).mpr source)
    rw [← same] at member
    obtain ⟨other, there, alike⟩ := List.mem_map.mp member
    rw [← alike]
    exact ((listed other).mp there).2
  · intro fits
    refine ⟨names, rfl, ordered, fun name => (listed name).trans ⟨And.left, fun source => ?_⟩⟩
    exact ⟨source, fits name source⟩

/-- The lists of the files of a module in the directory `l` as they ought to be: the source files
directly in it, and behind them those in `test`. -/
def ListsSources (d : Disk) (m : Module) (l : Location) : Prop :=
  Lists m.path (SourceAt d l) (m.synthesisFiles d) ∧
  ∃ tests, m.simulationFiles d = m.synthesisFiles d ++ tests ∧
    Lists (m.path.child "test") (SourceAt d (l ++ ["test"])) tests

/-- The lists of the files of a module in the directory `l` as they are. -/
structure KnownSources (d : Disk) (m : Module) (l : Location) : Prop where
  /-- The source files directly in the directory, but for paths that cannot be looked up. -/
  synthesis : Lists m.path
    (fun name => SourceAt d l name ∧ Disk.textFault? (m.path.child name) = none)
    (m.synthesisFiles d)
  /-- The same files, and behind them others, from `test`. -/
  simulation : ∃ tests, m.simulationFiles d = m.synthesisFiles d ++ tests ∧
    Lists (m.path.child "test") (fun name => SourceAt d (l ++ ["test"]) name ∧
      Disk.textFault? ((m.path.child "test").child name) = none) tests ∧
    ∀ p ∈ m.synthesisFiles d, p ∉ tests
  /-- No file for synthesis stands in `test` or below. -/
  outside : ∀ p ∈ m.synthesisFiles d, ∀ k, d.locate p = .ok k → ¬ l ++ ["test"] <+: k
  /-- Nothing is missing exactly if no path is too long. -/
  whole : ListsSources d m l ↔
    (∀ name, SourceAt d l name → Disk.textFault? (m.path.child name) = none) ∧
    (∀ name, SourceAt d (l ++ ["test"]) name →
      Disk.textFault? ((m.path.child "test").child name) = none)

theorem not_isSourceName_test : ¬ IsSourceName "test" := by
  rintro ⟨stem, ext, -, whole, -⟩
  have dot : '.' ∈ "test".toList := by simp [whole]
  revert dot
  decide

/-- The place of a listed source file. -/
theorem place_of_lists (sound : d.Sound) {files : List Path} {p : Path} {wanted : String → Prop}
    (lists : Lists dir (fun name => SourceAt d l name ∧ wanted name) files)
    (here : d.place dir = l) (member : p ∈ files) :
    ∃ name, IsSourceName name ∧ d.place p = l ++ [name] := by
  obtain ⟨names, rfl, -, listed⟩ := lists
  obtain ⟨name, there, rfl⟩ := List.mem_map.mp member
  have source := ((listed name).mp there).1
  obtain ⟨contents, executable, stands⟩ := source.file
  obtain ⟨legal, named, -⟩ := sound.named _ _ _ stands
  exact ⟨name, source.named, by rw [Disk.place_child legal, Disk.step_name named, here]⟩

/-- The sources of a module whose directory has been found under a path that a walk has written. -/
theorem knownSources (sound : d.Sound) {m : Module} (walked : m.path.Walked)
    (found : d.locate m.path = .ok l) : KnownSources d m l := by
  have legal : Path.IsName "test" := by decide
  have named : Disk.Named "test" := by decide
  have here : d.place m.path = l := (Disk.locate_eq_ok found).symm
  have below : d.place (m.path.child "test") = l ++ ["test"] := by
    rw [Disk.place_child legal, here, Disk.step_name named]
  have synthesis := lists_sourcesIn sound walked here fun _ _ => found
  have tests := lists_sourcesIn sound (walked.child legal.2) below fun text there => by
    rw [← Disk.stepTo_of_ne walked.text_ne.1] at text ⊢
    exact (Disk.locate_stepTo_named_iff sound found legal named text).mpr ⟨rfl, by simp [there]⟩
  refine ⟨synthesis, ⟨_, rfl, tests, fun p first second => ?_⟩, fun p member k arrived inside => ?_,
    ?_⟩
  · obtain ⟨name, -, place⟩ := place_of_lists sound synthesis here first
    obtain ⟨other, -, place'⟩ := place_of_lists sound tests below second
    have lengths := congrArg List.length (place.symm.trans place')
    simp at lengths
  · obtain ⟨name, source, place⟩ := place_of_lists sound synthesis here member
    rw [Disk.locate_eq_ok arrived, place] at inside
    obtain rfl : "test" = name := by
      simpa using (List.prefix_append_right_inj l).mp inside
    exact not_isSourceName_test source
  · refine and_congr (lists_all_iff synthesis) ⟨?_, fun fits => ?_⟩
    · rintro ⟨others, same, all⟩
      obtain rfl := List.append_cancel_left same
      exact (lists_all_iff tests).mp all
    · exact ⟨_, rfl, (lists_all_iff tests).mpr fits⟩

end Module

namespace Registry

/-- A candidate is a directory that has been found under a path that a walk has written. -/
theorem walked_of_mem_candidates {d : Disk} (sound : d.Sound) {roots : List Path}
    {names : Option (List String)} {c : Candidate} (member : c ∈ candidates d roots names) :
    c.dir.Walked ∧ d.isDirectory c.dir = true := by
  obtain ⟨dir, listed, made⟩ := List.mem_filterMap.mp member
  obtain ⟨root, -, below⟩ := List.mem_flatMap.mp listed
  obtain ⟨inList, directory⟩ := List.mem_filter.mp below
  obtain rfl : c.dir = dir := by
    split at made
    · split at made
      · rw [← Option.some.inj made]
      · cases made
    · cases made
  exact ⟨Disk.walked_of_mem_list sound inList, directory⟩

/-- Each module that a discovery gives stands in the directory of its candidate, unless a factory
takes another one. Its files for synthesis are the source files directly in the directory, each once
and in the order of their names, each path that of the directory with the name behind it; its files
for simulation are those and the source files in `test`, and the two parts have nothing in common.
All sources are among them exactly if all can be looked up under their paths. -/
theorem discovered_sources {d : Disk} (sound : d.Sound) (made : List (String × Factory))
    (librarySuffix : Bool) (roots : List Path) (names : Option (List String)) {ms : List Module}
    (found : ((ofRegistrations made librarySuffix).discover d roots names).result = .ok ms) :
    List.Forall₂ (fun c m =>
        (lastFor? made c.name = none → m.path = c.dir) ∧
        (m.path = c.dir → ∃ l, d.locate m.path = .ok l ∧ d.entryAt? l = some .directory ∧
          Module.KnownSources d m l))
      (candidates d roots names) ms := by
  rw [result_discover, mapM_eq_ok_iff] at found
  refine List.forall₂_iff_zip.mpr
    ⟨found.length_eq, fun {c m} pair => ⟨fun last => ?_, fun same => ?_⟩⟩
  · have becomes := result_build_eq_ok_iff.mp ((List.forall₂_iff_zip.mp found).2 pair)
    cases becomes with
    | factory registered => simp [last] at registered
    | specialized => rfl
    | plain => rfl
  · obtain ⟨walked, directory⟩ := walked_of_mem_candidates sound (List.of_mem_zip pair).1
    rw [← same] at walked directory
    obtain ⟨located, there⟩ := Disk.locate_of_isDirectory directory
    exact ⟨_, located, there, Module.knownSources sound walked located⟩

/-! ### A source that is left out -/

/-- A name of `n` bytes. -/
def repeated (n : Nat) : String := String.ofList (List.replicate n 'd')

/-- A name of 250 bytes. -/
@[irreducible] def longName : String := repeated 250

/-- The name of a source file, of 34 bytes. -/
def farName : String := "aaaaaaaaaaaaaaaaaaaaaaaaaaaaaa.vhd"

/-- A disk with one module, in which one source file stands. -/
def distant : Disk where
  entries := [([longName], .directory), ([longName, "apa"], .directory),
    ([longName, "apa", farName], .file (.text "") false)]
  distinct := by simp
  cwd := []

theorem entryAt?_distant :
    distant.entryAt? [longName] = some .directory ∧
    distant.entryAt? [longName, "apa"] = some .directory ∧
    distant.entryAt? [longName, "apa", farName] = some (.file (.text "") false) := by
  simp [Disk.entryAt?, distant, List.lookup_cons]

/-- The path of the directory above the module, with detours. -/
def detour : Nat → Path
  | 0 => ⟨longName⟩
  | n + 1 => ((detour n).child "..").child longName

theorem utf8ByteSize_repeated (n : Nat) : (repeated n).utf8ByteSize = n := by
  rw [repeated, String.utf8ByteSize_ofList]
  induction n with
  | zero => rfl
  | succ n ih =>
    have single : 'd'.utf8Size = 1 := by decide
    rw [List.replicate_succ, String.utf8Len_cons, ih, single]

theorem mem_repeated {n : Nat} {c : Char} (member : c ∈ (repeated n).toList) : c = 'd' := by
  rw [repeated, String.toList_ofList] at member
  exact List.eq_of_mem_replicate member

theorem utf8ByteSize_longName : longName.utf8ByteSize = 250 := by
  unfold longName
  generalize 250 = n
  exact utf8ByteSize_repeated n

theorem mem_longName {c : Char} (member : c ∈ longName.toList) : c = 'd' := by
  unfold longName at member
  generalize 250 = n at member
  exact mem_repeated member

theorem isName_longName : Path.IsName longName ∧ Disk.Named longName := by
  have long := utf8ByteSize_longName
  refine ⟨⟨?_, fun slash => absurd (mem_longName slash) (by decide)⟩, ?_, ?_⟩
  all_goals
    intro same
    rw [same] at long
    exact absurd long (by decide)

theorem sound_distant : distant.Sound := by
  have top : (Path.IsName longName ∧ Disk.Named longName ∧
      longName.utf8ByteSize ≤ Disk.nameLimit) := by
    refine ⟨isName_longName.1, isName_longName.2, ?_⟩
    rw [utf8ByteSize_longName]
    decide
  refine .of_entries rfl ?_
  have entries : distant.entries = [([longName], .directory), ([longName, "apa"], .directory),
    ([longName, "apa", farName], .file (.text "") false)] := rfl
  simp only [entries, List.forall_mem_cons]
  refine ⟨?_, ?_, ?_, by simp⟩
  · rintro name last
    obtain rfl : longName = name := by simpa using last
    exact ⟨top, rfl⟩
  · rintro name last
    obtain rfl : "apa" = name := by simpa using last
    exact ⟨by decide, entryAt?_distant.1⟩
  · rintro name last
    obtain rfl : farName = name := by simpa using last
    exact ⟨by decide, entryAt?_distant.2.1⟩

theorem isName_up : Path.IsName ".." := by
  decide

theorem walked_detour : ∀ n, (detour n).Walked
  | 0 => .name isName_longName.1 isName_longName.2.1
  | n + 1 => ((walked_detour n).child isName_up.2).child isName_longName.1.2

theorem open_detour (n : Nat) : (detour n).endsInSlash = false := by
  cases n with
  | zero =>
    have legal := isName_longName.1
    exact Path.endsInSlash_of_suffix List.suffix_rfl (Path.toList_ne_nil legal) legal.2
  | succ n => exact Path.endsInSlash_child isName_longName.1 _

theorem utf8ByteSize_child {p : Path} {name : String} (given : p.text ≠ "")
    (noSlash : p.endsInSlash = false) (legal : Path.IsName name) :
    (p.child name).text.utf8ByteSize = p.text.utf8ByteSize + (name.utf8ByteSize + 1) := by
  have slash : '/'.utf8Size = 1 := by decide
  have last : String.utf8Len (⟨name⟩ : Path).chars = name.utf8ByteSize :=
    String.utf8Len_toList name
  rw [Path.utf8ByteSize_text, Path.utf8ByteSize_text, Path.child,
    Path.chars_join given (Path.isAbsolute_name legal), noSlash]
  simp [last, slash]

theorem utf8ByteSize_detour (n : Nat) : (detour n).text.utf8ByteSize = 254 * n + 250 := by
  have up : "..".utf8ByteSize = 2 := by decide
  induction n with
  | zero => exact utf8ByteSize_longName
  | succ n ih =>
    have given := (walked_detour n).text_ne.2
    have above := utf8ByteSize_child given (open_detour n) isName_up
    rw [detour, utf8ByteSize_child (Path.text_child_ne isName_up _)
      (Path.endsInSlash_child isName_up _) isName_longName.1, above, ih, utf8ByteSize_longName, up]
    omega

theorem noNul_detour (n : Nat) : '\x00' ∉ (detour n).chars := by
  have name : '\x00' ∉ longName.toList := fun nul => absurd (mem_longName nul) (by decide)
  induction n with
  | zero => exact name
  | succ n ih =>
    intro nul
    rcases Path.mem_chars_child nul with nul | nul | nul
    · rcases Path.mem_chars_child nul with nul | nul | nul
      · exact ih nul
      · revert nul
        decide
      · exact absurd nul (by decide)
    · exact name nul
    · exact absurd nul (by decide)

/-- A disk that holds one module, `apa`, in a directory with a long name. -/
structure HoldsApa (d : Disk) : Prop where
  sound : d.Sound
  atRoot : d.cwd = []
  above : d.entryAt? [longName] = some .directory
  directory : d.entryAt? [longName, "apa"] = some .directory
  alone : d.names [longName] = ["apa"]
  plain : d.entryAt? [longName, "apa", "module_apa.toml"] = none

theorem holdsApa_distant : HoldsApa distant where
  sound := sound_distant
  atRoot := rfl
  above := entryAt?_distant.1
  directory := entryAt?_distant.2.1
  alone := by simp [Disk.names, distant]
  plain := by simp [Disk.entryAt?, distant, farName]

section

variable {d : Disk} (holds : HoldsApa d)

include holds

/-- With all its detours, the path leads to the one directory. -/
theorem HoldsApa.locate_detour {n : Nat} (text : Disk.textFault? (detour n) = none) :
    d.locate (detour n) = .ok [longName] := by
  obtain ⟨legal, named⟩ := isName_longName
  have sound := holds.sound
  have present : d.entryAt? ([] ++ [longName]) ≠ none := by simp [holds.above]
  induction n with
  | zero =>
    have root : d.locate ⟨"."⟩ = .ok [] := holds.atRoot ▸ Disk.locate_dot sound.cwdDirectory
    have alone : Disk.stepTo ⟨"."⟩ longName = ⟨longName⟩ := by simp [Disk.stepTo]
    have found := (Disk.locate_stepTo_named_iff sound root legal named
      (by rwa [alone])).mpr ⟨rfl, present⟩
    rwa [alone] at found
  | succ n ih =>
    obtain ⟨notDot, given⟩ := (walked_detour n).text_ne
    have above := ((walked_detour n).child isName_up.2).text_ne
    have upText := Disk.textFault?_of_child above.2 legal text
    have here := ih (Disk.textFault?_of_child given isName_up upText)
    have up : d.locate ((detour n).child "..") = .ok [] := by
      rw [← Disk.stepTo_of_ne notDot] at upText ⊢
      refine (Disk.locate_stepTo_eq_ok_iff here isName_up upText).mpr ?_
      simp [Disk.walk, holds.above]
    rw [detour, ← Disk.stepTo_of_ne above.1] at text ⊢
    exact (Disk.locate_stepTo_named_iff sound up legal named text).mpr ⟨rfl, present⟩

end

def apart (n : Nat) : Path :=
  (detour n).child "apa"

theorem textFault?_apart {n : Nat} (few : n ≤ 15) : Disk.textFault? (apart n) = none := by
  have legal : Path.IsName "apa" := by decide
  have given := (walked_detour n).text_ne.2
  have three : "apa".utf8ByteSize = 3 := by decide
  refine Disk.textFault?_eq_none_iff.mpr ⟨fun nul => ?_, Path.text_child_ne legal _, ?_⟩
  · rcases Path.mem_chars_child nul with nul | nul | nul
    · exact noNul_detour n nul
    · revert nul
      decide
    · exact absurd nul (by decide)
  · rw [apart, utf8ByteSize_child given (open_detour n) legal, utf8ByteSize_detour, three,
      Disk.pathLimit]
    omega

section

variable {d : Disk} (holds : HoldsApa d) {n : Nat} (few : n ≤ 15)

include holds few

theorem HoldsApa.locate_apart : d.locate (apart n) = .ok [longName, "apa"] := by
  obtain ⟨notDot, given⟩ := (walked_detour n).text_ne
  have text := textFault?_apart few
  have above := holds.locate_detour (Disk.textFault?_of_child given (by decide) text)
  rw [apart, ← Disk.stepTo_of_ne notDot] at text ⊢
  exact (Disk.locate_stepTo_named_iff holds.sound above (by decide) (by decide) text).mpr
    ⟨rfl, by simp [holds.directory]⟩

theorem HoldsApa.candidates_eq : candidates d [detour n] none = [⟨"apa", apart n⟩] := by
  have text := textFault?_apart few
  have above := holds.locate_detour
    (Disk.textFault?_of_child (walked_detour n).text_ne.2 (by decide) text)
  have listed : d.list (detour n) (fun _ => true) = [apart n] := by
    rw [Disk.list_of_walked (walked_detour n) above holds.above, holds.alone]
    rfl
  have directory : d.isDirectory (apart n) = true := by
    simp [Disk.isDirectory, Disk.find?, holds.locate_apart few, holds.directory]
  have last : (apart n).fileName? = some "apa" := Path.fileName?_child (by decide) (by decide) _
  simp [candidates, directoriesIn, listed, directory, last, passes]

/-- The module is found, however many detours its path makes. -/
theorem HoldsApa.discover_eq :
    ((ofRegistrations [] false).discover d [detour n] none).result =
      .ok [.plain (apart n) false] := by
  have missing : d.pathExists (Candidate.file ⟨"apa", apart n⟩) = false := by
    have legal : Path.IsName "module_apa.toml" := by decide
    have walked : (apart n).Walked := (walked_detour n).child (by decide)
    have below : Candidate.file ⟨"apa", apart n⟩ =
        Disk.stepTo (apart n) "module_apa.toml" :=
      (Disk.stepTo_of_ne walked.text_ne.1 _).symm
    cases arrived : d.locate (Candidate.file ⟨"apa", apart n⟩) with
    | error f => simp [Disk.pathExists, Disk.find?, arrived]
    | ok l =>
      rw [below] at arrived
      obtain ⟨rfl, present⟩ := (Disk.locate_stepTo_named_iff holds.sound (holds.locate_apart few)
        legal (by decide) (Disk.textFault?_of_locate arrived)).mp arrived
      exact absurd holds.plain present
  rw [result_discover, holds.candidates_eq few, mapM_eq_ok_iff]
  exact .cons (result_build_eq_ok_iff.mpr (.plain rfl missing)) .nil

end

theorem locate_apart {n : Nat} (few : n ≤ 15) :
    distant.locate (apart n) = .ok [longName, "apa"] :=
  holdsApa_distant.locate_apart few

theorem discover_distant {n : Nat} (few : n ≤ 15) :
    ((ofRegistrations [] false).discover distant [detour n] none).result =
      .ok [.plain (apart n) false] :=
  holdsApa_distant.discover_eq few

/-- Without detours, the module has its source file. -/
theorem sources_of_apart :
    List.Forall₂ (fun c m =>
        (lastFor? [] c.name = none → m.path = c.dir) ∧
        (m.path = c.dir → ∃ l, distant.locate m.path = .ok l ∧
          distant.entryAt? l = some .directory ∧ Module.KnownSources distant m l))
      (candidates distant [detour 0] none) [.plain (apart 0) false] :=
  discovered_sources sound_distant [] false [detour 0] none (discover_distant (Nat.zero_le 15))

/-- With fifteen detours the path of the source file has 4099 bytes, and the file is left out. -/
theorem left_out_of_sources :
    distant.Sound ∧
      ((ofRegistrations [] false).discover distant [detour 15] none).result =
        .ok [.plain (apart 15) false] ∧
      distant.locate (apart 15) = .ok [longName, "apa"] ∧
      Module.SourceAt distant [longName, "apa"] farName ∧
      ¬ Module.ListsSources distant (.plain (apart 15) false) [longName, "apa"] := by
  have source : Module.SourceAt distant [longName, "apa"] farName :=
    ⟨⟨List.replicate 30 'a', ['v', 'h', 'd'], by decide, by decide, by decide⟩,
      ⟨.text "", false, entryAt?_distant.2.2⟩, rfl⟩
  have found := locate_apart (Nat.le_refl 15)
  have walked : (apart 15).Walked := (walked_detour 15).child (by decide)
  refine ⟨sound_distant, discover_distant (Nat.le_refl 15), found, source, fun lists => ?_⟩
  have fits := (Module.knownSources sound_distant walked found).whole.mp lists
  have short := (Disk.textFault?_eq_none_iff.mp (fits.1 farName source)).2.2
  have sizes : "apa".utf8ByteSize = 3 ∧ farName.utf8ByteSize = 34 := by decide +kernel
  have legal : Path.IsName "apa" := by decide
  have size : ((apart 15).child farName).text.utf8ByteSize = 4099 := by
    rw [utf8ByteSize_child walked.text_ne.2 (Path.endsInSlash_child legal _) (by decide), apart,
      utf8ByteSize_child (walked_detour 15).text_ne.2 (open_detour 15) legal, utf8ByteSize_detour,
      sizes.1, sizes.2]
  exact absurd (size ▸ short) (by decide)

end Registry

end FpgaProject
