import FpgaProject.Proofs.Disk.Place
import FpgaProject.Proofs.Script.Account
import FpgaProject.Proofs.Script.Building
import FpgaProject.Proofs.Script.Places

/-!
Paths in the scripts of a project.

Nothing is put around a path in a script, so whether it is one word there depends on its characters.
`paths_read_iff` says when each path of the two scripts is read as it should be: exactly if each is
accepted in its place and, as long as the other texts do no harm (`Account.Settled`), exactly if no
character of a path ends its word or starts a substitution (`Account.FitsPaths`). The paths of a build
stand among fixed texts, so there only the paths count.
-/

namespace FpgaProject

open Script Tcl

namespace Design

/-! ### Creating -/

namespace Account

/-- The texts of an account other than paths leave the reader where it should be. -/
structure Settled (a : Account) : Prop where
  name : Harmless a.name ' '
  part : Harmless a.part '\n'
  libraries : ∀ s ∈ a.sources, Harmless s.1 ' '
  generics : a.generics ≠ [] → Harmless ("\x7b" ++ bindingsText a.generics ++ "\x7d") ' '
  references : ∀ c ∈ a.constraints, ∀ r ∈ c.reference, Harmless r ' '

/-- Each path of an account fits into its places. The file of a constraint that is left out of a
stage stands in brackets, too. -/
structure FitsPaths (a : Account) : Prop where
  folder : clean script false a.folder.toList = true
  sources : ∀ s ∈ a.sources, (Operand.paths (s.2.map String.toList)).fits false = true
  blockDesign : ∀ file ∈ a.blockDesign, clean script false file.toList = true
  constraints : ∀ c ∈ a.constraints, clean script (leftOut? c.usage).isSome c.file.toList = true

def pathCommands (a : Account) : List Command :=
  [.createProject a.name a.folder a.part, .setLanguage, .blank] ++ a.sourceCommands ++ [.blank] ++
    a.blockDesignCommands ++ [.blank] ++ a.genericCommands ++ [.blank] ++ a.constraintCommands

theorem commands_eq_append (a : Account) :
    a.commands = a.pathCommands ++ [.blank, .setTop a.top, .reorderFiles, .blank, .exit] := by
  simp [commands, groups, pathCommands, List.intercalate_cons_cons]

/-- What holds of each command up to the last path, by what the account tells. -/
theorem forall_pathCommands {P : Command → Prop} {a : Account} (language : P .setLanguage)
    (blank : P .blank) (generics : a.generics ≠ [] → P (.setGenerics (bindingsText a.generics))) :
    (∀ c ∈ a.pathCommands, P c) ↔
      P (.createProject a.name a.folder a.part) ∧ (∀ s ∈ a.sources, P (.readSources s.1 s.2)) ∧
        (∀ file ∈ a.blockDesign, P (.source file)) ∧
        ∀ c ∈ a.constraints, P (.readConstraint c.reference c.file) ∧
          ∀ stage ∈ leftOut? c.usage, P (.leaveOut stage c.file) := by
  have set : ∀ c ∈ a.genericCommands, P c := by
    intro c hc
    unfold genericCommands at hc
    split at hc
    · cases hc
    · obtain rfl := List.mem_singleton.mp hc
      exact generics (by assumption)
  have sources : (∀ c ∈ a.sourceCommands, P c) ↔ ∀ s ∈ a.sources, P (.readSources s.1 s.2) :=
    List.forall_mem_map
  have blockDesign : (∀ c ∈ a.blockDesignCommands, P c) ↔
      ∀ file ∈ a.blockDesign, P (.source file) := by
    rw [blockDesignCommands, List.forall_mem_map]
    simp only [Option.mem_toList, Option.mem_def]
  have constraints : (∀ c ∈ a.constraintCommands, P c) ↔
      ∀ c ∈ a.constraints, P (.readConstraint c.reference c.file) ∧
        ∀ stage ∈ leftOut? c.usage, P (.leaveOut stage c.file) := by
    simp only [constraintCommands, List.forall_mem_flatMap, ConstraintAccount.commands,
      List.forall_mem_cons, List.forall_mem_map, Option.mem_toList, Option.mem_def]
  simp only [pathCommands, List.forall_mem_append, List.forall_mem_cons, List.not_mem_nil,
    false_implies, implies_true, and_true, sources, blockDesign, constraints, blank, language]
  constructor
  · rintro ⟨⟨⟨⟨hfolder, hsources⟩, hblock⟩, -⟩, hconstraints⟩
    exact ⟨hfolder, hsources, hblock, hconstraints⟩
  · rintro ⟨hfolder, hsources, hblock, hconstraints⟩
    exact ⟨⟨⟨⟨hfolder, hsources⟩, hblock⟩, set⟩, hconstraints⟩

/-- The commands of a settled account are settled. -/
theorem settled_pathCommands {a : Account} (settled : a.Settled) :
    ∀ c ∈ a.pathCommands, c.Settled := by
  have language : Command.setLanguage.Settled := settled_of_slotless rfl (by decide)
  rw [forall_pathCommands language settled_blank fun some =>
    settled_setGenerics (settled.generics some)]
  refine ⟨settled_createProject settled.name settled.part, ?_, ?_, ?_⟩
  · intro s hs
    exact settled_readSources (settled.libraries s hs)
  · intro file _
    exact settled_of_lastInLine rfl (by decide)
  · intro c hc
    exact ⟨settled_readConstraint (settled.references c hc), fun stage _ => settled_leaveOut stage _⟩

/-- The places of the file of a constraint, of which one may be in brackets. -/
theorem fitsPaths_constraint (c : ConstraintAccount) :
    ((Command.readConstraint c.reference c.file).FitsPaths ∧
        ∀ stage ∈ leftOut? c.usage, (Command.leaveOut stage c.file).FitsPaths) ↔
      clean script (leftOut? c.usage).isSome c.file.toList = true := by
  obtain ⟨file, reference, usage⟩ := c
  have read : (Command.readConstraint reference file).FitsPaths ↔
      clean script false file.toList = true := by
    cases reference <;> exact (Command.fitsPaths_iff rfl).trans .rfl
  have left : ∀ stage, (Command.leaveOut stage file).FitsPaths ↔
      clean script true file.toList = true :=
    fun stage => (Command.fitsPaths_iff rfl).trans .rfl
  rw [read]
  cases usage with
  | all => simp [leftOut?]
  | synthesis | implementation =>
    simp only [leftOut?, Option.mem_def, Option.some.injEq, forall_eq', left, Option.isSome_some,
      and_iff_right_iff_imp]
    exact clean_of_nested

/-- The paths of the commands fit if those of the account do. -/
theorem fitsPaths_pathCommands (a : Account) :
    (∀ c ∈ a.pathCommands, c.FitsPaths) ↔ a.FitsPaths := by
  have slotless : ∀ {c : Command}, c.slot? = none → c.FitsPaths := Command.fitsPaths_of_slotless
  rw [forall_pathCommands (slotless rfl) (slotless rfl) fun _ => slotless rfl]
  simp only [fitsPaths_constraint]
  have folder : (Command.createProject a.name a.folder a.part).FitsPaths ↔
      clean script false a.folder.toList = true :=
    (Command.fitsPaths_iff rfl).trans .rfl
  have sources : (∀ s ∈ a.sources, (Command.readSources s.1 s.2).FitsPaths) ↔
      ∀ s ∈ a.sources, (Operand.paths (s.2.map String.toList)).fits false = true :=
    forall₂_congr fun s _ => (Command.fitsPaths_iff rfl).trans .rfl
  have blockDesign : (∀ file ∈ a.blockDesign, (Command.source file).FitsPaths) ↔
      ∀ file ∈ a.blockDesign, clean script false file.toList = true :=
    forall₂_congr fun file _ => (Command.fitsPaths_iff rfl).trans .rfl
  rw [folder, sources, blockDesign]
  constructor
  · rintro ⟨hfolder, hsources, hblock, hconstraints⟩
    exact ⟨hfolder, hsources, hblock, hconstraints⟩
  · rintro ⟨hfolder, hsources, hblock, hconstraints⟩
    exact ⟨hfolder, hsources, hblock, hconstraints⟩

/-- In the commands of a settled account, paths are accepted exactly if each fits into its places. -/
theorem acceptsPaths_commands {a : Account} (settled : a.Settled) :
    AcceptsPaths .fresh a.commands ↔ a.FitsPaths := by
  have closing := acceptsPaths_of_slotless
    (s := [.blank, .setTop a.top, .reorderFiles, .blank, .exit]) (by simp [Command.slot?]) .fresh
  rw [commands_eq_append, acceptsPaths_append_iff (settled_pathCommands settled),
    fitsPaths_pathCommands, and_iff_left closing]

end Account

/-! ### Texts of paths -/

/-- The text of an absolute path is that of a path. -/
theorem pathText_tclText {q : Path} (absolute : q.isAbsolute = true) :
    PathText q.tclText.toList where
  rooted := by
    have rooted : q.chars.head? = some '/' := beq_iff_eq.mp absolute
    rw [Path.toList_tclText, List.head?_map, rooted]
    rfl
  free := by
    rw [Path.toList_tclText]
    intro member
    obtain ⟨c, -, same⟩ := List.mem_map.mp member
    split at same
    · exact absurd same (by decide)
    · contradiction

theorem pathText_of_tclText? {d : Disk} {p : Path} {t : String} (told : tclText? d p = some t) :
    PathText t.toList := by
  obtain ⟨q, hq, rfl⟩ := Option.map_eq_some_iff.mp told
  exact pathText_tclText (Path.isAbsolute_absolute? d.isAbsolute_cwdPath hq)

/-- What an account tells as paths are paths. -/
structure Account.HoldsPaths (a : Account) : Prop where
  folder : PathText a.folder.toList
  sources : ∀ s ∈ a.sources, ∀ file ∈ s.2, PathText file.toList
  blockDesign : ∀ file ∈ a.blockDesign, PathText file.toList
  constraints : ∀ c ∈ a.constraints, PathText c.file.toList

/-- A project whose folder is told by its absolute form tells paths. -/
theorem holdsPaths_of_account {x : Design} {d : Disk} {folder : Path} {a : Account}
    (told : x.account? d folder = some a) (absolute : tclText? d folder = some a.folder) :
    a.HoldsPaths := by
  simp only [account?, Option.bind_eq_bind, Option.bind_eq_some_iff] at told
  obtain ⟨sources, hsources, blockDesign, hblock, constraints, hconstraints, same⟩ := told
  obtain rfl := Option.some.inj same
  refine ⟨pathText_of_tclText? absolute, ?_, ?_, ?_⟩
  · intro s hs file hfile
    obtain ⟨m, -, hm⟩ := exists_of_mem_mapM hsources s (List.mem_filter.mp hs).1
    obtain ⟨files, hfiles, rfl⟩ := Option.map_eq_some_iff.mp hm
    obtain ⟨p, -, hp⟩ := exists_of_mem_mapM hfiles file hfile
    exact pathText_of_tclText? hp
  · intro file hfile
    obtain rfl : blockDesign = some file := hfile
    cases given : x.blockDesign with
    | none => simp [given] at hblock
    | some p =>
      have told : tclText? d p = some file := by simpa [given] using hblock
      exact pathText_of_tclText? told
  · intro c hc
    obtain ⟨constraint, -, told⟩ := exists_of_mem_mapM hconstraints c hc
    obtain ⟨file, hfile, rfl⟩ := Option.map_eq_some_iff.mp told
    exact pathText_of_tclText? hfile

/-- What stands in the slots of the commands is what the account tells as paths. -/
theorem Account.holdsPaths_commands {a : Account} (paths : a.HoldsPaths) :
    ∀ c ∈ a.commands, c.HoldsPaths := by
  have slotless : ∀ {c : Command}, c.slot? = none → c.HoldsPaths := Command.holdsPaths_of_slotless
  rw [commands_eq_append, List.forall_mem_append]
  constructor
  · rw [forall_pathCommands (slotless rfl) (slotless rfl) fun _ => slotless rfl]
    refine ⟨Command.holdsPaths_of_path rfl rfl paths.folder, ?_, ?_, ?_⟩
    · intro s hs slot hslot t ht
      obtain rfl := Option.some.inj hslot
      obtain ⟨file, hfile, rfl⟩ := List.mem_map.mp ht
      exact paths.sources s hs file hfile
    · intro file hfile
      exact Command.holdsPaths_of_path rfl rfl (paths.blockDesign file hfile)
    · intro c hc
      have path := paths.constraints c hc
      refine ⟨?_, fun stage _ => Command.holdsPaths_of_path rfl rfl path⟩
      cases c.reference <;> exact Command.holdsPaths_of_path rfl rfl path
  · intro c hc
    simp only [List.mem_cons, List.not_mem_nil, or_false] at hc
    rcases hc with rfl | rfl | rfl | rfl | rfl <;> exact slotless rfl

/-! ### Building -/

/-- The commands for a run leave the reader at the start of a command, and have no paths. -/
theorem settled_stage {r : RunPlan} (known : r ∈ [synthesisPlan, implementationPlan]) :
    ∀ c ∈ r.commands, c.Settled ∧ c.slot? = none := by
  have ends : ∀ r ∈ [synthesisPlan, implementationPlan], ∀ c ∈ r.commands,
      reach .fresh c.chars = .fresh := by
    decide +kernel
  have slotless : ∀ c ∈ r.commands, c.slot? = none := by simp [RunPlan.commands, Command.slot?]
  intro c hc
  exact ⟨settled_of_slotless (slotless c hc) (ends r known c hc), slotless c hc⟩

theorem settled_limitThreads {n : Nat} (few : n ≤ threadLimit) :
    (Command.limitThreads n).Settled := by
  have harmless : ∀ n ≤ threadLimit, Harmless (toString n) '\n' := by decide +kernel
  have led : reach .fresh "set_param general.maxThreads ".toList = ⟨[], .between true⟩ := by decide
  have shape : (Command.limitThreads n).chars =
      "set_param general.maxThreads ".toList ++ ((toString n).toList ++ ['\n']) := by
    simp [Command.chars, Command.lines]
  refine settled_of_slotless rfl ?_
  rw [shape, reach_append, led, harmless n few]
  rfl

/-- The commands of a build are settled. -/
theorem settled_buildCommands {file : String} {n : Nat} {result : Option String}
    (few : n ≤ threadLimit) : ∀ c ∈ buildCommands file n result, c.Settled := by
  have later : ∀ c ∈ laterCommands result, c.Settled := by
    cases result with
    | none => simp [laterCommands]
    | some t =>
      intro c hc
      rcases List.mem_append.mp hc with hc | hc
      · exact (settled_stage (by simp) c hc).1
      · simp only [List.mem_cons, List.not_mem_nil, or_false] at hc
        rcases hc with rfl | rfl | rfl | rfl
        · exact settled_blank
        · exact settled_of_lastInLine rfl (by decide)
        · exact settled_of_lastInLine rfl (by decide)
        · exact settled_blank
  intro c hc
  simp only [buildCommands, List.mem_cons, List.mem_append, List.not_mem_nil, or_false] at hc
  rcases hc with rfl | rfl | rfl | hc | rfl | hc | rfl
  · exact settled_of_lastInLine rfl (by decide)
  · exact settled_limitThreads few
  · exact settled_blank
  · exact (settled_stage (by simp) c hc).1
  · exact settled_blank
  · exact later c hc
  · exact settled_of_slotless rfl (by decide)

/-- What holds of each command of a build that has a slot holds of all. -/
theorem forall_buildCommands {P : Command → Prop} {file : String} {n : Nat}
    {result : Option String} (slotless : ∀ c, c.slot? = none → P c) :
    (∀ c ∈ buildCommands file n result, P c) ↔
      P (.openProject file) ∧
        ∀ t ∈ result, P (.writeBitstream t) ∧ P (.writeHardware t) := by
  have synthesis : (∀ c ∈ synthesisPlan.commands, P c) ↔ True :=
    iff_true_intro fun c hc => slotless c (settled_stage (by simp) c hc).2
  have implementation : (∀ c ∈ implementationPlan.commands, P c) ↔ True :=
    iff_true_intro fun c hc => slotless c (settled_stage (by simp) c hc).2
  have later : (∀ c ∈ laterCommands result, P c) ↔
      ∀ t ∈ result, P (.writeBitstream t) ∧ P (.writeHardware t) := by
    cases result with
    | none => simp [laterCommands]
    | some t =>
      simp only [laterCommands, List.forall_mem_append, List.forall_mem_cons, implementation]
      simp [slotless .blank rfl]
  simp only [buildCommands, List.forall_mem_cons, List.forall_mem_append, later, synthesis]
  simp [slotless .blank rfl, slotless (.limitThreads n) rfl, slotless .exit rfl]

/-- In the text of a build, paths are read as they should be exactly if they are clean. -/
theorem readsPaths_buildCommands {file : String} {n : Nat} {result : Option String}
    (few : n ≤ threadLimit) (path : PathText file.toList)
    (paths : ∀ t ∈ result, PathText t.toList) :
    ReadsPaths (buildCommands file n result) ↔
      clean script false file.toList = true ∧ ∀ t ∈ result, clean script false t.toList = true := by
  have holds : ∀ c ∈ buildCommands file n result, c.HoldsPaths := by
    rw [forall_buildCommands fun c => Command.holdsPaths_of_slotless]
    exact ⟨Command.holdsPaths_of_path rfl rfl path, fun t ht =>
      ⟨Command.holdsPaths_of_path rfl rfl (paths t ht),
        Command.holdsPaths_of_path rfl rfl (paths t ht)⟩⟩
  have fits : (∀ c ∈ buildCommands file n result, c.FitsPaths) ↔
      clean script false file.toList = true ∧
        ∀ t ∈ result, clean script false t.toList = true := by
    rw [forall_buildCommands fun c => Command.fitsPaths_of_slotless]
    refine and_congr ((Command.fitsPaths_iff rfl).trans .rfl) (forall₂_congr fun t _ => ?_)
    rw [Command.fitsPaths_iff rfl, Command.fitsPaths_iff rfl]
    exact and_self_iff
  have settled : ∀ c ∈ buildCommands file n result, c.Settled := settled_buildCommands few
  have accepted := acceptsPaths_append_iff (t := []) settled
  rw [List.append_nil] at accepted
  rw [readsPaths_iff holds, accepted, fits]
  simp [AcceptsPaths]

/-- The file for the results is told by an absolute form. -/
theorem pathText_resultText? {x : Design} {d : Disk} {r : BuildRequest} :
    ∀ t ∈ x.resultText? r (r.output.bind fun folder => folder.absolute? d.cwdPath),
      PathText t.toList := by
  intro t ht
  unfold resultText? at ht
  split at ht
  · cases ht
  · obtain ⟨o, ho, rfl⟩ := Option.map_eq_some_iff.mp ht
    obtain ⟨folder, -, hfolder⟩ := Option.bind_eq_some_iff.mp ho
    have absolute := Path.isAbsolute_absolute? d.isAbsolute_cwdPath hfolder
    exact pathText_tclText (Path.isAbsolute_join absolute _)

/-! ### Both scripts -/

/-- Each path operand of a script of creation is read as it should be, and the one that stands for the
folder is the text of its absolute form. What an account tells as other paths are such texts. -/
def TellsPaths (d : Disk) (folder : Path) (a : Account) : Prop :=
  tclText? d folder = some a.folder ∧ ReadsPaths a.commands

/-- Each path of a generated script is one word, with the text of the absolute path as its value,
exactly if the reader comes to it between words and it is clean there; in a project whose other texts
do no harm, and in each build, exactly if all paths are clean in their places. -/
theorem paths_read_iff (x : Design) (d : Disk) :
    (∀ (folder : Path) (commands : List Command), x.creation d folder = .ok commands →
        ∃ a, x.account? d folder = some a ∧ commands = a.commands ∧
          (TellsPaths d folder a ↔
            tclText? d folder = some a.folder ∧ AcceptsPaths .fresh commands) ∧
          (a.Settled → (TellsPaths d folder a ↔
            tclText? d folder = some a.folder ∧ a.FitsPaths))) ∧
    ∀ (projectFile : Path) (r : BuildRequest) (commands : List Command),
      x.building d projectFile r = .ok commands →
        ∃ file, tclText? d projectFile = some file ∧
          ∃ result, result =
              x.resultText? r (r.output.bind fun folder => folder.absolute? d.cwdPath) ∧
            commands = buildCommands file (min r.threads threadLimit) result ∧
            (ReadsPaths commands ↔ clean script false file.toList = true ∧
              ∀ t ∈ result, clean script false t.toList = true) := by
  refine ⟨?_, ?_⟩
  · intro folder commands made
    obtain ⟨a, told, rfl⟩ := exists_account_of_creation made
    have accepted : tclText? d folder = some a.folder →
        (ReadsPaths a.commands ↔ AcceptsPaths .fresh a.commands) := by
      intro absolute
      exact readsPaths_iff (Account.holdsPaths_commands (holdsPaths_of_account told absolute))
    refine ⟨a, told, rfl, and_congr_right accepted, fun settled => ?_⟩
    refine and_congr_right fun absolute => ?_
    rw [accepted absolute, Account.acceptsPaths_commands settled]
  · intro projectFile r commands made
    obtain ⟨q, hq, rfl⟩ := exists_of_building made
    have hfile : tclText? d projectFile = some q.tclText := by rw [tclText?, hq, Option.map_some]
    refine ⟨q.tclText, hfile, _, rfl, rfl, ?_⟩
    exact readsPaths_buildCommands (Nat.min_le_right ..) (pathText_of_tclText? hfile)
      pathText_resultText?

theorem settled_sampleAccount : sampleAccount.Settled := by
  constructor <;> decide

theorem fitsPaths_sampleAccount : sampleAccount.FitsPaths := by
  constructor <;> decide

/-- The paths of the sample are read as they should be, where it is created and where it is built. -/
theorem sample_paths_read :
    (sample.creation (.empty ["work"]) ⟨"/work/out"⟩ = .ok sampleAccount.commands ∧
      TellsPaths (.empty ["work"]) ⟨"/work/out"⟩ sampleAccount) ∧
    ∃ commands, sample.building (.empty ["work"]) ⟨"out/p.xpr"⟩ ⟨false, 12, some ⟨"out"⟩⟩ =
        .ok commands ∧ ReadsPaths commands := by
  constructor
  · have made : sample.creation (.empty ["work"]) ⟨"/work/out"⟩ = .ok sampleAccount.commands := by
      rw [creation_eq_commands, account?_sample]
      rfl
    obtain ⟨a, told, -, -, tells⟩ := (paths_read_iff _ _).1 _ _ made
    obtain rfl : sampleAccount = a := Option.some.inj (account?_sample.symm.trans told)
    exact ⟨made, (tells settled_sampleAccount).mpr ⟨by decide +kernel, fitsPaths_sampleAccount⟩⟩
  · have made : sample.building (.empty ["work"]) ⟨"out/p.xpr"⟩ ⟨false, 12, some ⟨"out"⟩⟩ =
        .ok (buildCommands "/work/out/p.xpr" 8 (some "/work/out/p")) := by
      decide +kernel
    obtain ⟨file, told, result, written, -, reads⟩ := (paths_read_iff _ _).2 _ _ _ made
    have hfile : tclText? (.empty ["work"]) ⟨"out/p.xpr"⟩ = some "/work/out/p.xpr" := by
      decide +kernel
    obtain rfl : "/work/out/p.xpr" = file := Option.some.inj (hfile.symm.trans told)
    have hresult : result = some "/work/out/p" := by
      rw [written]
      decide +kernel
    refine ⟨_, made, reads.mpr ⟨by decide, ?_⟩⟩
    rw [hresult]
    decide

/-- A project of nothing but names, in a folder whose name holds a blank. -/
def spacedAccount : Account where
  name := "n"
  folder := "/work/my proj"
  part := "p"
  top := "t"
  sources := []
  blockDesign := none
  generics := []
  constraints := [⟨"/work/my proj/constrain_clock_crossings.tcl", none, .all⟩]

/-- The script of creation takes a folder with a blank in its name for two words. -/
theorem not_tellsPaths_spaced :
    ∃ x : Design, x.creation (.empty ["work"]) ⟨"/work/my proj"⟩ = .ok spacedAccount.commands ∧
      x.account? (.empty ["work"]) ⟨"/work/my proj"⟩ = some spacedAccount ∧
      ¬ TellsPaths (.empty ["work"]) ⟨"/work/my proj"⟩ spacedAccount := by
  refine ⟨⟨"n", [], "p", "t", none, ⟨[], by decide⟩, [], none, []⟩, ?_, ?_, ?_⟩
  · decide +kernel
  · decide +kernel
  · rintro ⟨-, reads⟩
    have folder : PathText spacedAccount.folder.toList := ⟨by decide, by decide⟩
    have holds : (Command.createProject "n" spacedAccount.folder "p").HoldsPaths :=
      Command.holdsPaths_of_path rfl rfl folder
    have accepted := (Slot.reads_iff (holds _ rfl) _).mp (reads [] _ _ rfl _ rfl)
    exact absurd accepted.2.2 (by decide)

end Design

end FpgaProject
