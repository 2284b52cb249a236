import Mathlib.Data.List.Basic
import FpgaProject.Proofs.Script.Account
import FpgaProject.Proofs.Script.Session

/-!
The stages in which the constraints of a project are used.

A tool that takes a script of creation keeps the constraints that have been read, in order, and for
each the stages in which it is used (`Loaded`). A constraint is left out of a stage by its file, and
with it all constraints before it that were read from the same file. So each constraint is used where
neither it nor a later one of the same file is left out (`Loads`). That is what the constraints ask
for exactly if no later one of the same file is left out of a stage in which an earlier one is used
(`Loads.meant_iff`). Main statement: `constraints_scoped`.
-/

namespace FpgaProject

namespace Script

/-! ### Lines for constraints -/

/-- What a line asks for that is about constraints. -/
inductive Request where
  | read (reference : Option String) (file : String)
  | leaveOut (stage : Stage) (file : String)
deriving DecidableEq, Repr

def lastWord (line : List Char) : String :=
  String.ofList (line.reverse.takeWhile (· ≠ ' ')).reverse

/-- Reads the operands of `read_xdc`: the file is the last word, and what stands before it between
the options is the reference. -/
def readFile? (operands : List Char) : Option Request :=
  let file := lastWord operands
  if operands = ("-unmanaged " ++ file).toList then some (.read none file)
  else (between? "-ref " (" -unmanaged " ++ file) operands).map fun r => .read (some r) file

/-- What stands before the file in a line that leaves it out of a stage. -/
def leaveOutFront (stage : Stage) : String :=
  "set_property " ++ stageProperty stage ++ " false [get_files "

/-- Reads a line; nothing if it is not about constraints. -/
def request? (line : List Char) : Option Request :=
  match afterFront? "read_xdc ".toList line with
  | some operands => readFile? operands
  | none => [Stage.synthesis, .implementation].findSome? fun stage =>
      (between? (leaveOutFront stage) "]" line).map (.leaveOut stage)

/-! ### Entries -/

/-- A constraint that has been read: its file, the entity to which it is confined, and the stages in
which it is used. -/
structure Loaded where
  file : String
  reference : Option String
  activeIn : Stage → Bool

/-- The entry, left out of a stage. -/
def Loaded.without (stage : Stage) (e : Loaded) : Loaded :=
  { e with activeIn := fun s => e.activeIn s && s ≠ stage }

namespace Request

/-- What a request makes of the entries so far. A new one is used in each stage. -/
def apply (es : List Loaded) : Request → List Loaded
  | .read reference file => es ++ [⟨file, reference, fun _ => true⟩]
  | .leaveOut stage file => es.map fun e => if e.file = file then e.without stage else e

end Request

/-- Takes a line of a script; one that is not about constraints changes nothing. -/
def takeLine (es : List Loaded) (line : List Char) : List Loaded :=
  ((request? line).map (Request.apply es)).getD es

/-- The entries that come of lines, taken one after another. -/
def loadedBy (lines : List (List Char)) : List Loaded :=
  lines.foldl takeLine []

/-! ### Reading the lines of commands -/

theorem lastWord_append (front : String) {word : String} (free : ' ' ∉ word.toList) :
    lastWord (front ++ " " ++ word).toList = word := by
  have all : ∀ c ∈ word.toList.reverse, decide (c ≠ ' ') = true := fun c hc => by
    simpa using fun blank : c = ' ' => free (blank ▸ List.mem_reverse.mp hc)
  unfold lastWord
  rw [String.toList_append, String.toList_append, List.reverse_append,
    List.takeWhile_append_of_pos all]
  simp

theorem afterFront?_append_eq_none {front s : List Char} (other : afterFront? front s = none)
    (more : List Char) : afterFront? (front ++ more) s = none := by
  induction front generalizing s with
  | nil => simp [afterFront?] at other
  | cons a front ih =>
    cases s with
    | nil => rfl
    | cons b s =>
      by_cases same : a = b
      · simp only [afterFront?, same, if_true] at other
        simpa [afterFront?, same] using ih other
      · simp [afterFront?, same]

/-- A line that starts otherwise is not about constraints. -/
theorem request?_eq_none {line : List Char}
    (notRead : afterFront? "read_xdc ".toList line = none)
    (notLeftOut : afterFront? "set_property used_in_".toList line = none) :
    request? line = none := by
  have front : ∀ stage, ∃ more,
      (leaveOutFront stage).toList = "set_property used_in_".toList ++ more := by
    intro stage
    cases stage with
    | synthesis => exact ⟨"synthesis false [get_files ".toList, by decide⟩
    | implementation => exact ⟨"implementation false [get_files ".toList, by decide⟩
  have each : ∀ stage, between? (leaveOutFront stage) "]" line = none := by
    intro stage
    obtain ⟨more, split⟩ := front stage
    rw [between?, split, afterFront?_append_eq_none notLeftOut more]
    rfl
  simp only [request?, notRead, List.findSome?_cons, each, Option.map_none, List.findSome?_nil]

theorem request?_read {reference : Option String} {file : String} (free : ' ' ∉ file.toList) :
    ((Command.readConstraint reference file).lines.map String.toList).map request? =
      [some (.read reference file)] := by
  cases reference with
  | none =>
    have line : ("read_xdc -unmanaged " ++ file).toList =
        "read_xdc ".toList ++ ("-unmanaged " ++ file).toList := by simp
    have last : lastWord ("-unmanaged " ++ file).toList = file :=
      lastWord_append "-unmanaged" free
    simp only [Command.lines, List.map_cons, List.map_nil, request?, line, afterFront?_append,
      readFile?, last, if_true]
  | some reference =>
    have line : ("read_xdc -ref " ++ reference ++ " -unmanaged " ++ file).toList =
        "read_xdc ".toList ++ ("-ref " ++ reference ++ (" -unmanaged " ++ file)).toList := by simp
    have last : lastWord ("-ref " ++ reference ++ (" -unmanaged " ++ file)).toList = file := by
      have split : "-ref " ++ reference ++ (" -unmanaged " ++ file) =
          "-ref " ++ reference ++ " -unmanaged" ++ " " ++ file := by
        simp only [← String.toList_inj, String.toList_append, List.append_assoc]
        rfl
      rw [split]
      exact lastWord_append _ free
    have other : ("-ref " ++ reference ++ (" -unmanaged " ++ file)).toList ≠
        ("-unmanaged " ++ file).toList := by simp
    simp only [Command.lines, List.map_cons, List.map_nil, request?, line, afterFront?_append,
      readFile?, last, if_neg other, between?_append, Option.map_some]

theorem request?_leaveOut (stage : Stage) (file : String) :
    ((Command.leaveOut stage file).lines.map String.toList).map request? =
      [some (.leaveOut stage file)] := by
  have line : (Command.leaveOut stage file).lines = [leaveOutFront stage ++ file ++ "]"] := rfl
  have notRead : ∀ stage, afterFront? "read_xdc ".toList (leaveOutFront stage ++ file ++ "]").toList =
      none := by
    intro stage
    cases stage <;> simp [afterFront?, leaveOutFront]
  rw [line, List.map_singleton, List.map_singleton, request?, notRead]
  cases stage with
  | synthesis =>
    simp only [List.findSome?_cons, between?_append, Option.map_some]
  | implementation =>
    have other : between? (leaveOutFront .synthesis) "]"
        (leaveOutFront .implementation ++ file ++ "]").toList = none := by
      simp [between?, afterFront?, leaveOutFront, stageProperty]
    simp only [List.findSome?_cons, other, Option.map_none, between?_append, Option.map_some]

/-- What the lines of a command ask for, as far as constraints go. -/
def Command.requests : Command → List Request
  | .readConstraint reference file => [.read reference file]
  | .leaveOut stage file => [.leaveOut stage file]
  | _ => []

/-- Only the commands for constraints are read as such, whatever stands in the other ones. -/
theorem filterMap_request?_lines {c : Command}
    (free : ∀ reference file, c = .readConstraint reference file → ' ' ∉ file.toList) :
    (c.lines.map String.toList).filterMap request? = c.requests := by
  have known : ∀ {c : Command} {r : Request}, (c.lines.map String.toList).map request? = [some r] →
      (c.lines.map String.toList).filterMap request? = [r] := by
    intro c r read
    have := congrArg (List.filterMap id) read
    simpa [List.filterMap_map] using this
  cases c with
  | readConstraint reference file => exact known (request?_read (free _ _ rfl))
  | leaveOut stage file => exact known (request?_leaveOut stage file)
  | _ =>
    refine List.filterMap_eq_nil_iff.mpr fun line member => ?_
    simp only [Command.lines, complainIf, List.map_cons, List.map_nil, List.mem_cons,
      List.not_mem_nil, or_false] at member
    rcases member with rfl | rfl | rfl | rfl
    all_goals exact request?_eq_none (by simp [afterFront?]) (by simp [afterFront?])

theorem foldl_takeLine (lines : List (List Char)) (es : List Loaded) :
    lines.foldl takeLine es = (lines.filterMap request?).foldl Request.apply es := by
  induction lines generalizing es with
  | nil => rfl
  | cons line lines ih =>
    rw [List.foldl_cons, ih, takeLine]
    cases asked : request? line <;> simp [asked]

/-- The entries of a script are what its commands for constraints make of them. -/
theorem loadedBy_lines {commands : List Command}
    (free : ∀ reference file, Command.readConstraint reference file ∈ commands → ' ' ∉ file.toList) :
    loadedBy ((lines commands).map String.toList) =
      (commands.flatMap Command.requests).foldl Request.apply [] := by
  rw [loadedBy, foldl_takeLine, lines, List.map_flatMap, List.filterMap_flatMap]
  congr 1
  refine List.flatMap_congr fun c member => filterMap_request?_lines ?_
  rintro reference file rfl
  exact free reference file member

/-- The text of a script, cut at line feeds, gives the entries of its lines. -/
theorem loadedBy_text {commands : List Command}
    (oneLine : ∀ c ∈ commands, ∀ t ∈ c.operands, OneLine t) :
    loadedBy (Text.splitAt '\n' (text commands).toList) =
      loadedBy ((lines commands).map String.toList) := by
  have nothing : request? [] = none := by decide
  rw [splitAt_text oneLine, loadedBy, loadedBy, foldl_takeLine, foldl_takeLine, List.filterMap_append]
  simp [nothing]

end Script

namespace Design

open Script

/-! ### Entries of constraints -/

/-- What a constraint asks for. -/
def ConstraintAccount.requests (c : ConstraintAccount) : List Request :=
  .read c.reference c.file :: (leftOut? c.usage).toList.map (.leaveOut · c.file)

/-- The entry of a constraint when it has been read. -/
def ConstraintAccount.fresh (c : ConstraintAccount) : Loaded :=
  ⟨c.file, c.reference, fun _ => true⟩

/-- What constraints leave of an entry before them. -/
def restrict (cs : List ConstraintAccount) (e : Loaded) : Loaded :=
  { e with activeIn := fun s => e.activeIn s && cs.all fun c => c.file ≠ e.file || c.usage.includes s }

/-- The entries of constraints one after another. -/
def loaded : List ConstraintAccount → List Loaded
  | [] => []
  | c :: cs => restrict (c :: cs) c.fresh :: loaded cs

theorem restrict_restrict (c : ConstraintAccount) (cs : List ConstraintAccount) (e : Loaded) :
    restrict cs (restrict [c] e) = restrict (c :: cs) e := by
  simp [restrict, Bool.and_assoc]

theorem includes_of_leftOut? {u : Usage} {s : Stage} :
    u.includes s = !(leftOut? u).any (· = s) := by
  cases u <;> cases s <;> decide

/-- A constraint that is left out of a stage takes that stage from each entry of its file, and else
it takes nothing. -/
theorem restrict_singleton (c : ConstraintAccount) (e : Loaded) :
    restrict [c] e = (leftOut? c.usage).elim e fun stage =>
      if e.file = c.file then e.without stage else e := by
  cases left : leftOut? c.usage with
  | none => simp [restrict, includes_of_leftOut?, left]
  | some stage =>
    by_cases same : e.file = c.file
    · simp [restrict, Loaded.without, includes_of_leftOut?, left, same, eq_comm]
    · simp [restrict, Ne.symm same, same]

/-- A constraint adds its entry and restricts all entries of its file. -/
theorem foldl_requests (c : ConstraintAccount) (es : List Loaded) :
    c.requests.foldl Request.apply es = (es ++ [c.fresh]).map (restrict [c]) := by
  simp only [funext (restrict_singleton c)]
  cases left : leftOut? c.usage with
  | none => simp [ConstraintAccount.requests, left, Request.apply, ConstraintAccount.fresh]
  | some stage => simp [ConstraintAccount.requests, left, Request.apply, ConstraintAccount.fresh]

/-- Constraints restrict what was there before them and add their entries behind it. -/
theorem foldl_flatMap_requests (cs : List ConstraintAccount) (es : List Loaded) :
    (cs.flatMap ConstraintAccount.requests).foldl Request.apply es =
      es.map (restrict cs) ++ loaded cs := by
  induction cs generalizing es with
  | nil =>
    have nothing : restrict [] = id := funext fun e => by simp [restrict]
    simp [nothing, loaded]
  | cons c cs ih =>
    rw [List.flatMap_cons, List.foldl_append, foldl_requests, ih, List.map_map]
    have both : restrict cs ∘ restrict [c] = restrict (c :: cs) := funext (restrict_restrict c cs)
    simp [both, loaded]

/-- Of a script of creation, only the lines for constraints say something about them. -/
theorem requests_commands (a : Account) :
    a.commands.flatMap Command.requests = a.constraints.flatMap ConstraintAccount.requests := by
  have constraint : ∀ c : ConstraintAccount, c.commands.flatMap Command.requests = c.requests := by
    intro c
    cases left : leftOut? c.usage <;>
      simp [ConstraintAccount.commands, ConstraintAccount.requests, left, Command.requests]
  have generics : a.genericCommands.flatMap Command.requests = [] := by
    unfold Account.genericCommands
    split <;> rfl
  have constraints : a.constraintCommands.flatMap Command.requests =
      a.constraints.flatMap ConstraintAccount.requests := by
    rw [Account.constraintCommands, List.flatMap_assoc]
    exact List.flatMap_congr fun c _ => constraint c
  have silent : ∀ {α : Type} (xs : List α), xs.flatMap (fun _ => ([] : List Request)) = [] :=
    fun xs => List.flatMap_eq_nil_iff.mpr fun _ _ => rfl
  simp [Account.commands, Account.groups, List.intercalate_cons_cons, generics, constraints,
    Account.sourceCommands, Account.blockDesignCommands, Command.requests, List.flatMap_map, silent]

theorem mem_commands_of_readConstraint {a : Account} {reference : Option String} {file : String}
    (member : Command.readConstraint reference file ∈ a.commands) :
    ∃ c ∈ a.constraints, c.file = file := by
  have asked : Request.read reference file ∈ a.commands.flatMap Command.requests :=
    List.mem_flatMap.mpr ⟨_, member, List.mem_singleton.mpr rfl⟩
  rw [requests_commands] at asked
  obtain ⟨c, known, said⟩ := List.mem_flatMap.mp asked
  rcases List.mem_cons.mp said with e | left
  · exact ⟨c, known, (Request.read.inj e).2.symm⟩
  · obtain ⟨stage, -, e⟩ := List.mem_map.mp left
    cases e

/-- The script of an account gives the entries of its constraints, as long as no file of theirs holds
a blank. -/
theorem loadedBy_commands {a : Account} (clean : ∀ c ∈ a.constraints, ' ' ∉ c.file.toList) :
    loadedBy ((lines a.commands).map String.toList) = loaded a.constraints := by
  rw [loadedBy_lines, requests_commands, foldl_flatMap_requests]
  · rfl
  · intro reference file member
    obtain ⟨c, known, rfl⟩ := mem_commands_of_readConstraint member
    exact clean c known

/-! ### The constraints of a design -/

/-- What comes of constraints: each is read from its file and confined as it says, and is used in the
stages that neither it nor a later constraint of the same file is left out of. -/
inductive Loads (d : Disk) : List Constraint → List Loaded → Prop where
  | nil : Loads d [] []
  | cons {c : Constraint} {cs : List Constraint} {e : Loaded} {es : List Loaded} :
      absoluteText d c.file = .ok e.file → e.reference = c.reference →
      (∀ s, e.activeIn s = true ↔
        ∀ c' ∈ c :: cs, absoluteText d c'.file = .ok e.file → c'.usage.includes s = true) →
      Loads d cs es → Loads d (c :: cs) (e :: es)

/-- An entry is what its constraint asks for. -/
structure Meant (d : Disk) (c : Constraint) (e : Loaded) : Prop where
  file : absoluteText d c.file = .ok e.file
  reference : e.reference = c.reference
  activeIn : ∀ s, e.activeIn s = c.usage.includes s

/-- A constraint is spared by a later one: if they are of one file, the later one is used wherever
the earlier one is. -/
def Spared (d : Disk) (c c' : Constraint) : Prop :=
  absoluteText d c.file = absoluteText d c'.file →
    ∀ s, c.usage.includes s = true → c'.usage.includes s = true

variable {d : Disk} {cs : List Constraint} {es : List Loaded}

/-- What comes of constraints is what they say exactly if each is spared by all later ones. -/
theorem Loads.meant_iff (loads : Loads d cs es) :
    List.Forall₂ (Meant d) cs es ↔ cs.Pairwise (Spared d) := by
  induction loads with
  | nil => simp
  | @cons c cs e es file reference active _ ih =>
    rw [List.forall₂_cons, List.pairwise_cons, ih]
    refine and_congr_left' ⟨fun meant c' member same s used => ?_, fun spared => ?_⟩
    · rw [← meant.activeIn s] at used
      exact (active s).mp used c' (List.mem_cons_of_mem _ member) (same ▸ file)
    · refine ⟨file, reference, fun s => Bool.eq_iff_iff.mpr ((active s).trans ?_)⟩
      refine ⟨fun all => all c List.mem_cons_self file, fun used c' member same => ?_⟩
      rcases List.mem_cons.mp member with rfl | later
      · exact used
      · exact spared c' later (file.trans same.symm) s used

/-- The entries of the accounts of constraints are what comes of the constraints. -/
theorem loads_loaded {accounts : List ConstraintAccount}
    (told : cs.mapM (constraintAccount? d) = some accounts) : Loads d cs (loaded accounts) := by
  have each := map_eq_map_some_of_mapM told
  clear told
  induction cs generalizing accounts with
  | nil =>
    obtain rfl : accounts = [] := by simpa using each.symm
    exact .nil
  | cons c cs ih =>
    obtain ⟨k, ks, rfl, here, rest⟩ := List.map_eq_cons_iff.mp each.symm
    obtain ⟨file, text, rfl⟩ := Option.map_eq_some_iff.mp here.symm
    have text' := absoluteText_eq_ok_iff.mpr text
    refine .cons text' rfl (fun s => ?_) (ih rest.symm)
    simp only [restrict, ConstraintAccount.fresh, Bool.true_and, List.all_eq_true, Bool.or_eq_true]
    constructor
    · intro all c' member same
      have known : some (⟨file, c'.reference, c'.usage⟩ : ConstraintAccount) ∈
          (c :: cs).map (constraintAccount? d) :=
        List.mem_map.mpr ⟨c', member, by simp [constraintAccount?, absoluteText_eq_ok_iff.mp same]⟩
      rw [each] at known
      obtain ⟨k', listed, e⟩ := List.mem_map.mp known
      obtain rfl := Option.some.inj e
      exact (all _ listed).resolve_left (by simp)
    · intro all k' listed
      have known : some k' ∈ (c :: cs).map (constraintAccount? d) :=
        each ▸ List.mem_map_of_mem listed
      obtain ⟨c', member, made⟩ := List.mem_map.mp known
      obtain ⟨other, told, rfl⟩ := Option.map_eq_some_iff.mp made
      by_cases same : other = file
      · exact .inr (all c' member (absoluteText_eq_ok_iff.mpr (same ▸ told)))
      · exact .inl (decide_eq_true same)

/-- What a script of creation makes of the constraints of a design. -/
structure ScopesConstraints (x : Design) (d : Disk) (folder : Path) (commands : List Command) :
    Prop where
  /-- The constraints are read in order, and each is used where no later one forbids it. -/
  loads : Loads d (x.constraintsFor folder) (loadedBy ((lines commands).map String.toList))
  /-- That is what the constraints ask for exactly if each is spared by all later ones. -/
  meant : List.Forall₂ (Meant d) (x.constraintsFor folder)
      (loadedBy ((lines commands).map String.toList)) ↔
    (x.constraintsFor folder).Pairwise (Spared d)
  /-- The text of the script, cut at line feeds, is read alike if none of its texts holds one. -/
  text : (∀ c ∈ commands, ∀ t ∈ c.operands, OneLine t) →
    loadedBy (Text.splitAt '\n' (text commands).toList) =
      loadedBy ((lines commands).map String.toList)

/-- No file of a constraint holds a blank in its absolute form. -/
def CleanConstraints (x : Design) (d : Disk) (folder : Path) : Prop :=
  ∀ c ∈ x.constraintsFor folder, ∀ file, absoluteText d c.file = .ok file → ' ' ∉ file.toList

/-- A script of creation, which there is unless a path of the design is empty, reads the constraints
in order, and each is used in the stages that neither it nor a later one of the same file is left out
of, as long as no file of theirs holds a blank. -/
theorem constraints_scoped (x : Design) (d : Disk) (folder : Path)
    (clean : x.CleanConstraints d folder) :
    (x.HasEmptyPath ∧ x.creation d folder = .error (.fault .emptyPath)) ∨
      ∃ commands, x.creation d folder = .ok commands ∧ x.ScopesConstraints d folder commands := by
  cases made : x.creation d folder with
  | error e =>
    obtain ⟨empty, rfl⟩ := creation_eq_error_iff.mp made
    exact .inl ⟨empty, rfl⟩
  | ok commands =>
    obtain ⟨a, told, rfl⟩ := exists_account_of_creation made
    have constraints := constraints_of_account told
    have files : ∀ k ∈ a.constraints, ' ' ∉ k.file.toList := by
      intro k listed
      obtain ⟨c, member, made⟩ := exists_of_mem_mapM constraints k listed
      obtain ⟨file, text, rfl⟩ := Option.map_eq_some_iff.mp made
      exact clean c member file (absoluteText_eq_ok_iff.mpr text)
    have loads := loads_loaded constraints
    rw [← loadedBy_commands files] at loads
    exact .inr ⟨_, rfl, loads, loads.meant_iff, loadedBy_text⟩

/-- Constraints are clean if all that can be told of their files is. -/
theorem cleanConstraints_of_map {x : Design} {folder : Path} (files : List String)
    (told : (x.constraintsFor folder).map (fun c => absoluteText d c.file) = files.map .ok)
    (clean : ∀ file ∈ files, ' ' ∉ file.toList) : x.CleanConstraints d folder := by
  intro c member file text
  have known : absoluteText d c.file ∈ files.map .ok := told ▸ List.mem_map_of_mem member
  rw [text] at known
  obtain ⟨other, listed, same⟩ := List.mem_map.mp known
  obtain rfl := Except.ok.inj same
  exact clean other listed

/-- Constraints of one file in different scopes, each spared by the later ones. -/
def spared : Design :=
  ⟨"n", [], "p", "t", none, .empty,
    [⟨⟨"/a.xdc"⟩, some "r", .synthesis⟩, ⟨⟨"./../a.xdc"⟩, some "q", .all⟩,
      ⟨⟨"/a.xdc"⟩, none, .all⟩], none, []⟩

theorem spared_scoped :
    (spared.HasEmptyPath ∧
        spared.creation (.empty ["work"]) ⟨"/w"⟩ = .error (.fault .emptyPath)) ∨
      ∃ commands, spared.creation (.empty ["work"]) ⟨"/w"⟩ = .ok commands ∧
        spared.ScopesConstraints (.empty ["work"]) ⟨"/w"⟩ commands :=
  constraints_scoped spared (.empty ["work"]) ⟨"/w"⟩
    (cleanConstraints_of_map
      ["/a.xdc", "/work/../a.xdc", "/a.xdc", "/w/constrain_clock_crossings.tcl"]
      rfl (by decide))

/-- A constraint on the whole design, and one of the same file for an entity, in synthesis only. -/
def unspared : Design :=
  { spared with constraints := [⟨⟨"/a.xdc"⟩, none, .all⟩, ⟨⟨"/a.xdc"⟩, some "r", .synthesis⟩] }

def unsparedAccount : Account where
  name := "n"
  folder := "/w"
  part := "p"
  top := "t"
  sources := []
  blockDesign := none
  generics := []
  constraints := [⟨"/a.xdc", none, .all⟩, ⟨"/a.xdc", some "r", .synthesis⟩,
    ⟨"/w/constrain_clock_crossings.tcl", none, .all⟩]

/-- The constraint on the whole design is lost in implementation. -/
theorem not_meant_unspared :
    unspared.CleanConstraints (.empty ["work"]) ⟨"/w"⟩ ∧
      ∃ commands, unspared.creation (.empty ["work"]) ⟨"/w"⟩ = .ok commands ∧
        ¬ List.Forall₂ (Meant (.empty ["work"])) (unspared.constraintsFor ⟨"/w"⟩)
          (loadedBy ((lines commands).map String.toList)) := by
  have told : unspared.account? (.empty ["work"]) ⟨"/w"⟩ = some unsparedAccount := by
    decide +kernel
  have clean : unspared.CleanConstraints (.empty ["work"]) ⟨"/w"⟩ :=
    cleanConstraints_of_map ["/a.xdc", "/a.xdc", "/w/constrain_clock_crossings.tcl"]
      rfl (by decide)
  have loads := loads_loaded (constraints_of_account told)
  rw [← loadedBy_commands (by decide)] at loads
  refine ⟨clean, _, by rw [creation_eq_commands, told]; rfl, fun meant => ?_⟩
  -- The second constraint is left out of implementation, and it is of the same file.
  have first := (List.pairwise_cons.mp (loads.meant_iff.mp meant)).1
  have used := first ⟨⟨"/a.xdc"⟩, some "r", .synthesis⟩ List.mem_cons_self rfl .implementation rfl
  cases used

end Design

end FpgaProject
