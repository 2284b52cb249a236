import FpgaProject.Proofs.Disk.Extending
import FpgaProject.Proofs.Project.Scripts
import FpgaProject.Proofs.Script.Account

/-!
Histories of calls on projects.

Projects are created and built in any order, under any paths, with tools that may fail. A call
writes its scripts first and runs the tool then (`Call.perform_spec`), so what it leaves on the disk
is what the writing leaves, as long as the tool leaves the disk alone. From the frame of one call
(`done_framed`) follows that of a history, by induction on the calls (`framed_of_mem_history`):
nothing is ever lost, and only scripts are written. `history_framed` adds what becomes of a folder in
which a project has been created: it is refused from then on, exactly if its text is one that can be
looked up.
-/

namespace FpgaProject

namespace Project

/-! ### Creating -/

/-- The scripts that creating a project writes. -/
def creationNames : List String := [crossingsFile, creationFile]

theorem fill_framed {d : Disk} (sound : d.Sound) (p : Project) (folder : Path)
    (commands : List Script.Command) :
    d.Extends creationNames (p.fill d folder commands).1 ∧
      (p.fill d folder commands).1.Sound := by
  have crossings : d.Extends creationNames (p.writeCrossings d folder).1 ∧
      (p.writeCrossings d folder).1.Sound := by
    unfold writeCrossings
    split
    · have wrote := d.extends_writeText folder crossingsFile (by decide) crossingsText
      exact ⟨wrote.mono (by simp [creationNames]), sound.writeText _ _⟩
    · exact ⟨.refl _ d, sound⟩
  unfold fill
  split
  · rename_i d₁ f attempt
    rw [attempt] at crossings
    exact crossings
  · rename_i d₁ attempt
    rw [attempt] at crossings
    have wrote := d₁.extends_writeText folder creationFile (by decide) (Script.text commands)
    rw [writeScript_fst]
    exact ⟨crossings.1.trans (wrote.mono (by simp [creationNames])), crossings.2.writeText _ _⟩

theorem createAt_framed {d : Disk} (sound : d.Sound) (p : Project) (top : Path) :
    d.Extends creationNames (p.createAt top d).1 ∧ (p.createAt top d).1.Sound := by
  have grows := d.grows_makeDirectories top
  have kept := sound.makeDirectories top
  rcases p.createAt_inv top d with ⟨e, -, call⟩ | ⟨commands, -, ⟨f, call⟩ | ⟨-, call⟩⟩
  · exact call ▸ ⟨.refl _ d, sound⟩
  · exact call ▸ ⟨grows.extends, kept⟩
  · obtain ⟨filled, still⟩ := fill_framed kept p top commands
    exact call ▸ ⟨grows.extends.trans filled, still⟩

/-- Creating a project makes directories and writes its scripts, and does nothing else. -/
theorem createScript_framed {d : Disk} (sound : d.Sound) (p : Project) (folder : Path) :
    d.Extends creationNames (p.createScript folder d).1 ∧ (p.createScript folder d).1.Sound := by
  rcases p.createScript_inv folder d with ⟨-, call⟩ | ⟨-, call | ⟨top, -, call⟩⟩
  · exact call ▸ ⟨.refl _ d, sound⟩
  · exact call ▸ ⟨.refl _ d, sound⟩
  · exact call ▸ createAt_framed sound p top

/-- Building a project writes its script, and nothing if it fails. -/
theorem buildScript_framed {d : Disk} (sound : d.Sound) (p : Project) (folder : Path)
    (request : Design.BuildRequest) :
    d.Extends [buildingFile] (p.buildScript folder request d).1 ∧
      (p.buildScript folder request d).1.Sound ∧
      ∀ e, (p.buildScript folder request d).2.result = .error e →
        (p.buildScript folder request d).1 = d := by
  rcases p.buildScript_cases folder request d with
    ⟨e, failed⟩ | ⟨commands, x, there, made, written, -⟩
  · rw [failed]
    exact ⟨.refl _ d, sound, fun _ _ => rfl⟩
  · refine ⟨?_, ?_, fun e failed => ?_⟩
    · simp only [buildScript, there, made, if_true, writeScript_fst]
      exact d.extends_writeText folder buildingFile (by decide) _
    · simp only [buildScript, there, made, if_true, writeScript_fst]
      exact sound.writeText _ _
    · rw [written] at failed
      cases failed

/-- Once no folder was found, only the system refuses. -/
theorem error_of_createAt {p : Project} {top : Path} {d : Disk} {e : Error}
    (failed : (p.createAt top d).2.result = .error e) : ∃ f, e = .fault f := by
  rcases p.createAt_inv top d with ⟨e', refused, call⟩ | ⟨commands, -, ⟨f, call⟩ | ⟨-, call⟩⟩
  · rw [Design.creation_eq_commands] at refused
    rw [call] at failed
    obtain rfl := Except.error.inj failed
    cases told : p.design.account? d top with
    | some a => simp [told, Design.orError] at refused
    | none => exact ⟨.emptyPath, by simpa [told, Design.orError] using refused.symm⟩
  · rw [call] at failed
    exact ⟨f, (Except.error.inj failed).symm⟩
  · rw [call] at failed
    unfold fill writeScript at failed
    split at failed
    · exact ⟨_, (Except.error.inj failed).symm⟩
    · split at failed
      · exact ⟨_, (Except.error.inj failed).symm⟩
      · cases failed

/-- Creating a project is refused because the folder is found, or by the system. -/
theorem error_of_createScript {p : Project} {folder : Path} {d : Disk} {e : Error}
    (failed : (p.createScript folder d).2.result = .error e) :
    (d.pathExists folder = true ∧ e = .pathExists folder .buildInstead) ∨
      (d.pathExists folder = false ∧ ∃ f, e = .fault f) := by
  rcases p.createScript_inv folder d with ⟨there, call⟩ | ⟨missing, call | ⟨top, -, call⟩⟩
  · rw [call] at failed
    exact .inl ⟨there, (Except.error.inj failed).symm⟩
  · rw [call] at failed
    exact .inr ⟨missing, _, (Except.error.inj failed).symm⟩
  · rw [call] at failed
    exact .inr ⟨missing, error_of_createAt failed⟩

/-- A folder in which a project has been created is a directory. -/
theorem directory_of_createAt {p : Project} {top script : Path} {d : Disk} (sound : d.Sound)
    (absolute : top.isAbsolute = true) (ok : (p.createAt top d).2.result = .ok script) :
    ∃ l, (p.createAt top d).1.locate top = .ok l ∧
      (p.createAt top d).1.entryAt? l = some .directory := by
  rcases p.createAt_inv top d with ⟨e, -, call⟩ | ⟨commands, -, ⟨f, call⟩ | ⟨made, call⟩⟩
  · rw [call] at ok
    cases ok
  · rw [call] at ok
    cases ok
  · obtain ⟨found, there⟩ := Disk.locate_of_isDirectory
      (Disk.isDirectory_makeDirectories (Path.text_ne_of_isAbsolute absolute) made)
    have keeps := (fill_framed (sound.makeDirectories top) p top commands).1.keeps
    rw [call]
    exact ⟨_, keeps.locate_eq_ok found, keeps.directories _ there⟩

/-- A folder in which a project has been created is found on every disk that comes of it, exactly if
its text is not too long to be looked up. -/
theorem pathExists_iff_of_created {d after : Disk} (sound : d.Sound) {p : Project}
    {folder script : Path} (ok : (p.createScript folder d).2.result = .ok script)
    {names : List String} (extended : (p.createScript folder d).1.Extends names after)
    (sound' : after.Sound) :
    after.pathExists folder = true ↔ folder.text.utf8ByteSize < Disk.pathLimit := by
  rcases p.createScript_inv folder d with ⟨-, call⟩ | ⟨-, call | ⟨top, htop, call⟩⟩
  · rw [call] at ok
    cases ok
  · rw [call] at ok
    cases ok
  · rw [call] at ok extended
    obtain ⟨l, found, there⟩ :=
      directory_of_createAt sound (Path.isAbsolute_absolute? d.isAbsolute_cwdPath htop) ok
    have reached := extended.keeps.locate_eq_ok found
    have cwd : after.cwd = d.cwd := extended.cwd.trans (createAt_framed sound p top).1.cwd
    have htop' : folder.absolute? after.cwdPath = some top := by
      rw [Disk.cwdPath, cwd]
      exact htop
    rw [← Disk.textFault?_eq_none_iff_of_absolute? htop reached]
    constructor
    · intro seen
      by_contra refused
      simp [Disk.pathExists_of_textFault refused] at seen
    · intro fine
      have directory := extended.keeps.directories l there
      simp [Disk.pathExists, Disk.find?,
        Disk.locate_of_absolute? sound' htop' fine reached directory, directory]

/-! ### Calls -/

/-- A runner that leaves the disk alone. -/
def Quiet {σ : Type} (runner : Runner σ) : Prop :=
  ∀ tool script d s, (runner tool script d s).1.1 = d

/-- A call has come to its end, or nothing but the tool has failed. -/
def Completed : Except Error Unit → Prop
  | .ok () => True
  | .error e => ∃ cause, e = .toolFailed cause

/-- What comes of a call, by what has come of its writing. -/
def Follows : Except Error Path → Except Error Unit → Prop
  | .error e, result => result = .error e
  | .ok _, result => Completed result

theorem run_spec {σ : Type} (p : Project) {runner : Runner σ} (quiet : Quiet runner)
    (script : Path) (d : Disk) (s : σ) :
    (p.run runner script d s).1.1 = d ∧ Completed (p.run runner script d s).2.result := by
  have still := quiet p.tool script d s
  unfold run
  split
  · rename_i world events ran
    rw [ran] at still
    exact ⟨still, trivial⟩
  · rename_i world events cause ran
    rw [ran] at still
    exact ⟨still, cause, rfl⟩

theorem runWritten_spec {σ : Type} (p : Project) {runner : Runner σ} (quiet : Quiet runner)
    (written : Disk × Report Path) (s : σ) :
    (p.runWritten runner written s).1.1 = written.1 ∧
      Follows written.2.result (p.runWritten runner written s).2.result := by
  obtain ⟨d, events, result⟩ := written
  cases result with
  | error e => exact ⟨rfl, rfl⟩
  | ok script => exact p.run_spec quiet script d s

/-- One call on a project. -/
inductive Call (σ : Type) where
  | createScript (p : Project) (folder : Path)
  | create (p : Project) (folder : Path) (runner : Runner σ)
  | buildScript (p : Project) (folder : Path) (request : Design.BuildRequest)
  | build (p : Project) (folder : Path) (request : Design.BuildRequest) (runner : Runner σ)

namespace Call

variable {σ : Type}

/-- The folder in which a call creates a project, if it is one that creates. -/
def creates? : Call σ → Option Path
  | .createScript _ folder | .create _ folder _ => some folder
  | .buildScript .. | .build .. => none

def names : Call σ → List String
  | .createScript .. | .create .. => creationNames
  | .buildScript .. | .build .. => [buildingFile]

/-- The tool of the call, if it runs one, leaves the disk alone. -/
def Quiet : Call σ → Prop
  | .create _ _ runner | .build _ _ _ runner => Project.Quiet runner
  | .createScript .. | .buildScript .. => True

def perform : Call σ → Disk → σ → (Disk × σ) × Except Error Unit
  | .createScript p folder, d, s =>
    let written := p.createScript folder d
    ((written.1, s), written.2.result.map fun _ => ())
  | .create p folder runner, d, s =>
    let outcome := p.create runner folder d s
    (outcome.1, outcome.2.result)
  | .buildScript p folder request, d, s =>
    let written := p.buildScript folder request d
    ((written.1, s), written.2.result.map fun _ => ())
  | .build p folder request runner, d, s =>
    let outcome := p.build runner folder request d s
    (outcome.1, outcome.2.result)

def write : Call σ → Disk → Disk × Report Path
  | .createScript p folder, d | .create p folder _, d => p.createScript folder d
  | .buildScript p folder request, d => p.buildScript folder request d
  | .build p folder request _, d =>
    if request.lacksOutput then (d, .fail (.missingOutput .giveOutput))
    else p.buildScript folder request d

/-- A call leaves what its writing leaves, and fails if its writing fails. -/
theorem perform_spec {c : Call σ} (quiet : c.Quiet) (d : Disk) (s : σ) :
    (c.perform d s).1.1 = (c.write d).1 ∧
      Follows (c.write d).2.result (c.perform d s).2 := by
  have alone : ∀ written : Except Error Path, Follows written (written.map fun _ => ()) := by
    intro written
    cases written with
    | error e => rfl
    | ok script => trivial
  cases c with
  | createScript p folder => exact ⟨rfl, alone _⟩
  | buildScript p folder request => exact ⟨rfl, alone _⟩
  | create p folder runner => exact p.runWritten_spec quiet _ s
  | build p folder request runner =>
    cases lacks : request.lacksOutput with
    | true =>
      simp only [perform, write, Project.build, lacks, if_true]
      exact ⟨trivial, rfl⟩
    | false =>
      simp only [perform, write, Project.build, lacks, Bool.false_eq_true, if_false]
      exact p.runWritten_spec quiet _ s

/-- A call that is to create writes what creating a project writes. -/
theorem write_of_creates {c : Call σ} {folder : Path} (creates : c.creates? = some folder)
    (d : Disk) : ∃ p, c.write d = Project.createScript p folder d := by
  cases c with
  | createScript p folder' | create p folder' _ =>
    obtain rfl := Option.some.inj creates
    exact ⟨p, rfl⟩
  | buildScript | build => cases creates

/-- A call writes its own files only, and a call that is to build writes nothing if it fails. -/
theorem write_framed {d : Disk} (sound : d.Sound) (c : Call σ) :
    d.Extends c.names (c.write d).1 ∧ (c.write d).1.Sound ∧
      (c.creates? = none → ∀ e, (c.write d).2.result = .error e → (c.write d).1 = d) := by
  have creating : ∀ p folder, d.Extends creationNames (Project.createScript p folder d).1 ∧
      (Project.createScript p folder d).1.Sound := createScript_framed sound
  cases c with
  | createScript p folder | create p folder _ =>
    exact ⟨(creating p folder).1, (creating p folder).2, fun builds => by cases builds⟩
  | buildScript p folder request =>
    obtain ⟨wrote, still, failing⟩ := buildScript_framed sound p folder request
    exact ⟨wrote, still, fun _ => failing⟩
  | build p folder request _ =>
    obtain ⟨wrote, still, failing⟩ := buildScript_framed sound p folder request
    cases lacks : request.lacksOutput with
    | true =>
      simp only [write, lacks, if_true]
      exact ⟨.refl _ d, sound, fun _ _ _ => trivial⟩
    | false =>
      simp only [write, lacks, Bool.false_eq_true, if_false]
      exact ⟨wrote, still, fun _ => failing⟩

end Call

/-! ### Histories -/

/-- A call that has been performed. -/
structure Done (σ : Type) where
  call : Call σ
  before : Disk
  result : Except Error Unit
  after : Disk

/-- What is kept of the performance of a call. -/
def Call.done {σ : Type} (c : Call σ) (d : Disk) (s : σ) : Done σ :=
  ⟨c, d, (c.perform d s).2, (c.perform d s).1.1⟩

def history {σ : Type} : List (Call σ) → Disk → σ → List (Done σ)
  | [], _, _ => []
  | c :: calls, d, s =>
    c.done d s :: history calls (c.perform d s).1.1 (c.perform d s).1.2

/-- A call has written its own files only, and none at all if it is to build and neither came to its
end nor reached the tool. -/
structure Done.Framed {σ : Type} (x : Done σ) : Prop where
  wrote : x.before.Extends x.call.names x.after
  unbuilt : x.call.creates? = none → ¬ Completed x.result → x.after = x.before

/-- A call has been refused because its folder is there, and has changed nothing. -/
structure Done.Refused {σ : Type} (x : Done σ) (folder : Path) : Prop where
  result : x.result = .error (.pathExists folder .buildInstead)
  unchanged : x.after = x.before

section

variable {σ : Type}

/-- The frame of one call. -/
theorem done_framed {d : Disk} (sound : d.Sound) {c : Call σ} (quiet : c.Quiet) (s : σ) :
    (c.done d s).Framed ∧ (c.done d s).after.Sound := by
  obtain ⟨after, follows⟩ := Call.perform_spec quiet d s
  obtain ⟨wrote, still, failing⟩ := Call.write_framed sound c
  refine ⟨⟨?_, fun builds incomplete => ?_⟩, ?_⟩
  · show d.Extends c.names (c.perform d s).1.1
    exact after ▸ wrote
  · show (c.perform d s).1.1 = d
    rw [after]
    cases result : (c.write d).2.result with
    | error e => exact failing builds e result
    | ok script =>
      rw [result] at follows
      exact absurd follows incomplete
  · show (c.perform d s).1.1.Sound
    exact after ▸ still

def scriptNames : List String := [crossingsFile, creationFile, buildingFile]

theorem names_subset (c : Call σ) : c.names ⊆ scriptNames := by
  cases c <;> simp [Call.names, scriptNames, creationNames]

/-- Each call of a history has been performed on a sound disk that comes of the first one, and has
kept its frame. -/
theorem framed_of_mem_history {calls : List (Call σ)} (quiet : ∀ c ∈ calls, c.Quiet) {d : Disk}
    (sound : d.Sound) {s : σ} {x : Done σ} (member : x ∈ history calls d s) :
    (∃ c ∈ calls, ∃ s', x = c.done x.before s') ∧ x.before.Sound ∧
      d.Extends scriptNames x.before ∧ x.Framed ∧ x.after.Sound := by
  induction calls generalizing d s with
  | nil => cases member
  | cons c calls ih =>
    obtain ⟨framed, still⟩ := done_framed sound (quiet c List.mem_cons_self) s
    rcases List.mem_cons.mp member with rfl | later
    · exact ⟨⟨c, List.mem_cons_self, s, rfl⟩, sound, .refl _ d, framed, still⟩
    · obtain ⟨⟨c', hc', s', same⟩, before, extended, rest⟩ :=
        ih (fun c hc => quiet c (List.mem_cons_of_mem _ hc)) still later
      exact ⟨⟨c', List.mem_cons_of_mem _ hc', s', same⟩, before,
        (framed.wrote.mono (names_subset c)).trans extended, rest⟩

/-- What follows a call in a history is a history on the disk that the call leaves. -/
theorem history_after {calls : List (Call σ)} {d : Disk} {s : σ} {first later : List (Done σ)}
    {x : Done σ} (split : history calls d s = first ++ x :: later) :
    ∃ rest s', (∀ c ∈ rest, c ∈ calls) ∧ later = history rest x.after s' := by
  induction calls generalizing d s first with
  | nil => simp [history] at split
  | cons c calls ih =>
    cases first with
    | nil =>
      obtain ⟨rfl, rfl⟩ := List.cons.inj split
      exact ⟨calls, _, fun c hc => List.mem_cons_of_mem _ hc, rfl⟩
    | cons y first =>
      obtain ⟨rest, s', sub, same⟩ := ih (List.cons.inj split).2
      exact ⟨rest, s', fun c hc => List.mem_cons_of_mem _ (sub c hc), same⟩

/-- A call that has created a project, or whose tool has failed at it, has written the script. -/
theorem created_of_completed {c : Call σ} (quiet : c.Quiet) {folder : Path}
    (creates : c.creates? = some folder) {d : Disk} {s : σ}
    (completed : Completed (c.done d s).result) :
    ∃ p script, (createScript p folder d).2.result = .ok script ∧
      (c.done d s).after = (createScript p folder d).1 := by
  obtain ⟨after, follows⟩ := Call.perform_spec quiet d s
  obtain ⟨p, write⟩ := Call.write_of_creates creates d
  rw [write] at after follows
  cases result : (createScript p folder d).2.result with
  | ok script => exact ⟨p, script, result, after⟩
  | error e =>
    exfalso
    rw [result] at follows
    obtain ⟨cause, rfl⟩ : ∃ cause, e = .toolFailed cause := by
      have : (c.done d s).result = .error e := follows
      rwa [this] at completed
    rcases error_of_createScript result with ⟨-, other⟩ | ⟨-, f, other⟩
    · cases other
    · cases other

/-- A call that is to create is refused exactly if its folder is found. -/
theorem refused_iff {c : Call σ} (quiet : c.Quiet) {folder : Path}
    (creates : c.creates? = some folder) (d : Disk) (s : σ) :
    (c.done d s).Refused folder ↔ d.pathExists folder = true := by
  obtain ⟨after, follows⟩ := Call.perform_spec quiet d s
  obtain ⟨p, write⟩ := Call.write_of_creates creates d
  rw [write] at after follows
  constructor
  · intro refused
    have same : (c.perform d s).2 = .error (.pathExists folder .buildInstead) := refused.result
    rw [same] at follows
    cases result : (createScript p folder d).2.result with
    | ok script =>
      rw [result] at follows
      obtain ⟨cause, other⟩ := follows
      cases other
    | error e =>
      rw [result] at follows
      obtain rfl := Except.error.inj follows
      rcases error_of_createScript result with ⟨there, -⟩ | ⟨-, f, other⟩
      · exact there
      · cases other
  · intro there
    have call : createScript p folder d = (d, .fail (.pathExists folder .buildInstead)) := by
      simp [createScript, there]
    rw [call] at after follows
    exact ⟨follows, after⟩

/-- The frame of a history. No call loses a directory or a file, and over the whole history no file
is new or other but scripts; each call writes its own scripts only, and one that is to build writes
its script only if it comes to its end or its tool fails. Once a project has been created in a
folder, if only so far that the tool failed, each later call that is to create one in that folder is
refused and changes nothing, exactly if the text of the folder is not too long to be looked up. -/
theorem history_framed {d : Disk} (sound : d.Sound) {calls : List (Call σ)}
    (quiet : ∀ c ∈ calls, c.Quiet) (s : σ) :
    (∀ x ∈ history calls d s, d.Extends scriptNames x.after ∧ x.Framed) ∧
    ∀ earlier first between second later folder,
      history calls d s = earlier ++ first :: between ++ second :: later →
      first.call.creates? = some folder → second.call.creates? = some folder →
      Completed first.result →
      (second.Refused folder ↔ folder.text.utf8ByteSize < Disk.pathLimit) := by
  constructor
  · intro x member
    obtain ⟨-, -, extended, framed, -⟩ := framed_of_mem_history quiet sound member
    exact ⟨extended.trans (framed.wrote.mono (names_subset _)), framed⟩
  · intro earlier first between second later folder split creates again completed
    rw [List.append_assoc, List.cons_append] at split
    have member : first ∈ history calls d s := by simp [split]
    obtain ⟨⟨c, hc, s₁, same⟩, before, -, -, after⟩ := framed_of_mem_history quiet sound member
    obtain ⟨rest, s₂, sub, follow⟩ := history_after split
    have member' : second ∈ history rest first.after s₂ := by simp [← follow]
    obtain ⟨⟨c', hc', s₃, same'⟩, before', extended, -⟩ :=
      framed_of_mem_history (fun c hc => quiet c (sub c hc)) after member'
    have call : first.call = c := by rw [same]; rfl
    have call' : second.call = c' := by rw [same']; rfl
    rw [same] at completed extended
    obtain ⟨p, script, ok, left⟩ :=
      created_of_completed (quiet c hc) (call ▸ creates) completed
    rw [left] at extended
    rw [same', refused_iff (quiet c' (sub c' hc')) (call' ▸ again)]
    exact pathExists_iff_of_created before ok extended before'

end

/-! ### Samples -/

def killed : Runner Unit :=
  fun _ _ d s => ((d, s), .fail .terminated)

/-- The project without modules, under another name. -/
def renamed : Project :=
  { bare with design := { bare.design with name := "q" } }

/-- A project is to be created, another one built, and a third one created in the first folder. -/
def attempts : List (Call Unit) :=
  [.create bare ⟨"./c"⟩ killed, .buildScript bare ⟨"b"⟩ ⟨true, 12, none⟩,
    .createScript renamed ⟨"./c"⟩]

/-- A folder that was made for a tool that was killed is refused later on. -/
theorem refused_after_killed :
    (∀ c ∈ attempts, c.Quiet) ∧ ∃ first second third,
      history attempts occupied () = [first, second, third] ∧
      first.result = .error (.toolFailed .terminated) ∧ third.Refused ⟨"./c"⟩ := by
  have quiet : ∀ c ∈ attempts, c.Quiet := by
    simp [attempts, Call.Quiet, Project.Quiet, killed]
  refine ⟨quiet, _, _, _, rfl, by rfl, ?_⟩
  exact ((history_framed sound_occupied quiet ()).2 [] _ [_] _ [] ⟨"./c"⟩ rfl rfl rfl
    ⟨_, rfl⟩).mpr (by decide)

/-- A name behind as many `./`. -/
def dotted : Nat → List Char
  | 0 => ['c']
  | n + 1 => '.' :: '/' :: dotted n

/-- A folder in the working directory whose text is too long to be looked up. -/
def longPath : Path := ⟨String.ofList (dotted 2048)⟩

theorem utf8Len_dotted (n : Nat) : String.utf8Len (dotted n) = 2 * n + 1 := by
  induction n with
  | zero => rfl
  | succ n ih =>
    rw [dotted, String.utf8Len_cons, String.utf8Len_cons, ih]
    have : '.'.utf8Size = 1 ∧ '/'.utf8Size = 1 := by decide
    omega

theorem getLast?_dotted (n : Nat) : (dotted n).getLast? = some 'c' := by
  induction n with
  | zero => rfl
  | succ n ih =>
    cases hn : dotted n with
    | nil => simp [hn] at ih
    | cons x rest => simpa [dotted, hn] using ih

theorem kept_names_dotted (n : Nat) : (Path.names (dotted n)).filter (· ≠ ".") = ["c"] := by
  induction n with
  | zero => decide +kernel
  | succ n ih =>
    have split : dotted (n + 1) = ['.'] ++ '/' :: dotted n := rfl
    have dot : (Path.names ['.']).filter (· ≠ ".") = [] := by decide +kernel
    rw [split, Path.names_append_slash, List.filter_append, ih, dot]
    rfl

theorem absolute?_longPath (cwd : Path) : longPath.absolute? cwd = some (cwd.child "c") := by
  have chars : longPath.chars = dotted 2048 := String.toList_ofList
  have head : dotted 2048 = '.' :: '/' :: dotted 2047 := rfl
  have given : longPath.text.isEmpty = false := by
    rw [← Bool.not_eq_true, String.isEmpty_iff, ← String.toList_eq_nil_iff]
    show longPath.chars ≠ []
    simp [chars, head]
  have relative : longPath.isAbsolute = false := by simp [Path.isAbsolute, chars, head]
  have noSlash : longPath.endsInSlash = false := by simp [Path.endsInSlash, chars, getLast?_dotted]
  have kept : longPath.keptPieces = ["c"] := by
    rw [Path.keptPieces, Path.pieces_eq_names, chars, kept_names_dotted]
  simp [Path.absolute?, Path.start, given, relative, noSlash, kept]

theorem missing_longPath (d : Disk) : d.pathExists longPath = false := by
  refine Disk.pathExists_of_textFault fun fine => ?_
  have short := (Disk.textFault?_eq_none_iff.mp fine).2.2
  rw [longPath, String.utf8ByteSize_ofList, utf8Len_dotted] at short
  exact absurd short (by decide)

/-- In a folder that is never found, projects are created again and again. -/
theorem created_twice {folder : Path} (missing : ∀ d : Disk, d.pathExists folder = false)
    (htop : ∀ cwd, folder.absolute? cwd = some (cwd.child "c")) :
    ∃ first second,
      history [.createScript bare folder, .createScript renamed folder] occupied () =
        [first, second] ∧
      first.result = .ok () ∧ second.result = .ok () ∧ ¬ second.Refused folder ∧
      ∃ l, second.after.entryAt? l ≠ second.before.entryAt? l := by
  have once : bare.createScript folder occupied = bare.createAt ⟨"/work/c"⟩ occupied :=
    createScript_eq_createAt (missing _) (htop _) bare
  have twice : renamed.createScript folder (bare.createAt ⟨"/work/c"⟩ occupied).1 =
      renamed.createAt ⟨"/work/c"⟩ (bare.createAt ⟨"/work/c"⟩ occupied).1 :=
    createScript_eq_createAt (missing _) (htop _) renamed
  refine ⟨_, _, rfl, ?_, ?_, fun refused => ?_, ["work", "c", creationFile], ?_⟩
  · show (bare.createScript folder occupied).2.result.map _ = _
    rw [once]
    rfl
  · show (renamed.createScript folder (bare.createScript folder occupied).1).2.result.map _ = _
    rw [once, twice]
    rfl
  · have found := (refused_iff (c := .createScript renamed folder) trivial rfl _ ()).mp refused
    simp [missing] at found
  · show (renamed.createScript folder (bare.createScript folder occupied).1).1.entryAt? _ ≠
      (bare.createScript folder occupied).1.entryAt? _
    rw [once, twice]
    decide +kernel

/-- Under a text that is too long to be looked up, a second project is created in the folder of the
first, and the script of the first is overwritten. -/
theorem not_refused_under_longPath :
    occupied.Sound ∧ ∃ first second,
      history [.createScript bare longPath, .createScript renamed longPath] occupied () =
        [first, second] ∧
      first.result = .ok () ∧ second.result = .ok () ∧ ¬ second.Refused longPath ∧
      ∃ l, second.after.entryAt? l ≠ second.before.entryAt? l :=
  ⟨sound_occupied, created_twice missing_longPath absolute?_longPath⟩

end Project

end FpgaProject
