import FpgaProject.Config
import FpgaProject.Proofs.Registry.Discovery

/-!
Opening the projects of a configuration.

All projects are opened by assembling one after another (`result_openProjects`), one of them by
finding its entry first and assembling that (`result_openProject`). `openings_agree` says that the
two ways give the same projects, entry by entry, and when each of them fails. A project is compared
as a whole: what is equal has one name and one tool, and says the same in each of its scripts. Where
several entries have one name, only the first of them can be opened by it.
-/

namespace FpgaProject

namespace Report

variable {α β γ : Type}

theorem bind_assoc (r : Report α) (f : α → Report β) (g : β → Report γ) :
    r >>= f >>= g = r >>= fun a => f a >>= g := by
  cases first : r.result with
  | error e =>
    rw [bind_of_error first, bind_of_error first]
    rfl
  | ok a =>
    rw [bind_of_ok first, bind_of_ok first]
    cases second : (f a).result with
    | error e =>
      rw [bind_of_error second]
      rfl
    | ok b =>
      rw [bind_of_ok second, ← List.append_assoc]
      rfl

instance : LawfulMonad Report := LawfulMonad.mk' Report
  (fun r => by
    obtain ⟨events, result⟩ := r
    cases result with
    | error e => rfl
    | ok a => exact congrArg (Report.mk · (.ok a)) (List.append_nil events))
  (fun _ _ => rfl)
  bind_assoc

@[simp] theorem result_ofExcept (r : Except Error α) : (ofExcept r).result = r := rfl

@[simp] theorem result_say (e : Event) : (say e).result = .ok () := rfl

/-- Steps one after another come to what their results come to. -/
theorem result_mapM (f : α → Report β) (xs : List α) :
    (xs.mapM f).result = xs.mapM fun x => (f x).result := by
  induction xs with
  | nil => rfl
  | cons x xs ih =>
    rw [List.mapM_cons, List.mapM_cons, result_bind, ← ih]
    simp only [result_bind, result_pure]
    rfl

end Report

/-- The project that an entry of a configuration describes. The tool is the first that is named by
the command line, by the entry or by the environment. -/
def ProjectEntry.project (p : ProjectEntry) (d : Disk) (environment : Option String) (file : Path)
    (tool : Option String) : Report Project :=
  p.toProject d (configRoot file) (selectTool tool p.tool environment) (some file.text)

section

variable (d : Disk) (environment : Option String) (file : Path)

theorem result_openProjects :
    (openProjects d environment file).result = Config.ofFile d file >>= fun c =>
      c.projects.mapM fun p => (p.project d environment file none).result := by
  unfold openProjects
  rw [Report.result_bind, Report.result_ofExcept]
  simp only [Report.result_mapM]
  rfl

theorem result_openProject (name tool : Option String) :
    (openProject d environment file name tool).result = Config.ofFile d file >>= fun c =>
      c.select name file >>= fun p => (p.project d environment file tool).result := by
  unfold openProject
  simp only [Report.result_bind, Report.result_ofExcept, Report.result_say]
  rfl

end

/-! ### Finding an entry -/

namespace Config

variable {c : Config} {p : ProjectEntry}

/-- A name finds the first entry that has it. -/
theorem select_of_first {i : Nat} (there : c.projects[i]? = some p)
    (first : ∀ j < i, ∀ b, c.projects[j]? = some b → b.name ≠ p.name) (file : Path) :
    c.select (some p.name) file = .ok p := by
  have found : c.projects.find? (·.name = p.name) = some p := by
    obtain ⟨inside, rfl⟩ := List.getElem?_eq_some_iff.mp there
    refine List.find?_eq_some_iff_getElem.mpr ⟨by simp, i, inside, rfl, ?_⟩
    intro j before
    have earlier := first j before _ (List.getElem?_eq_getElem (Nat.lt_trans before inside))
    simpa using earlier
  simp [select, found]

theorem select_of_unknown {name : String} (unknown : ∀ p ∈ c.projects, p.name ≠ name)
    (file : Path) : c.select (some name) file = .error (.projectNotFound name .listProjects) := by
  have missing : c.projects.find? (·.name = name) = none := by
    simpa using unknown
  simp [select, missing]

theorem select_of_single (single : c.projects = [p]) (file : Path) :
    c.select none file = .ok p := by
  simp [select, single]

/-- The entry with a name in the configuration that a file holds. -/
def Gives (d : Disk) (file : Path) (name : Option String) (p : ProjectEntry) : Prop :=
  ∃ c, ofFile d file = .ok c ∧ c.select name file = .ok p

theorem Gives.unique {d : Disk} {file : Path} {name : Option String} {q : ProjectEntry}
    (first : Gives d file name p) (second : Gives d file name q) : p = q := by
  obtain ⟨c, read, picked⟩ := first
  obtain ⟨c', read', picked'⟩ := second
  obtain rfl : c = c' := Except.ok.inj (read.symm.trans read')
  exact Except.ok.inj (picked.symm.trans picked')

end Config

/-! ### Both ways -/

/-- What holds of two lists element by element holds of what stands at a place. -/
theorem exists_of_forall₂_getElem? {α β : Type} {R : α → β → Prop} {xs : List α} {ys : List β}
    (each : List.Forall₂ R xs ys) {i : Nat} {x : α} (there : xs[i]? = some x) :
    ∃ y, ys[i]? = some y ∧ R x y := by
  obtain ⟨inside, rfl⟩ := List.getElem?_eq_some_iff.mp there
  have inside' : i < ys.length := each.length_eq ▸ inside
  exact ⟨ys[i], List.getElem?_eq_getElem inside', each.get inside inside'⟩

section

variable {d : Disk} {environment : Option String} {file : Path}

/-- A project is opened by finding its entry and assembling that. -/
theorem openProject_eq_ok_iff {name tool : Option String} {q : Project} :
    (openProject d environment file name tool).result = .ok q ↔
      ∃ p, Config.Gives d file name p ∧ (p.project d environment file tool).result = .ok q := by
  rw [result_openProject]
  unfold Config.Gives
  cases read : Config.ofFile d file with
  | error e => simp [bind, Except.bind]
  | ok c =>
    cases picked : c.select name file with
    | error e => simp [bind, Except.bind, picked]
    | ok p => simp [bind, Except.bind, picked]

/-- All projects are opened if each entry describes one. -/
theorem openProjects_eq_ok_iff {ps : List Project} :
    (openProjects d environment file).result = .ok ps ↔
      ∃ c, Config.ofFile d file = .ok c ∧
        List.Forall₂ (fun p q => (p.project d environment file none).result = .ok q)
          c.projects ps := by
  rw [result_openProjects]
  cases Config.ofFile d file with
  | error e => simp [bind, Except.bind]
  | ok c => simp [bind, Except.bind, mapM_eq_ok_iff]

theorem exists_openProjects_iff :
    (∃ ps, (openProjects d environment file).result = .ok ps) ↔
      ∃ c, Config.ofFile d file = .ok c ∧
        ∀ p ∈ c.projects, ∃ q, (p.project d environment file none).result = .ok q := by
  rw [result_openProjects]
  cases Config.ofFile d file with
  | error e => simp [bind, Except.bind]
  | ok c => simp [bind, Except.bind, exists_mapM_eq_ok_iff]

/-- They are not if the file cannot be read, or for the first entry that describes none. -/
theorem openProjects_eq_error_iff {e : Error} :
    (openProjects d environment file).result = .error e ↔ Config.ofFile d file = .error e ∨
      ∃ c before p after, Config.ofFile d file = .ok c ∧ c.projects = before ++ p :: after ∧
        (∀ b ∈ before, ∃ q, (b.project d environment file none).result = .ok q) ∧
        (p.project d environment file none).result = .error e := by
  rw [result_openProjects]
  cases Config.ofFile d file with
  | error f => simp [bind, Except.bind]
  | ok c => simp [bind, Except.bind, mapM_eq_error_iff]

theorem openProject_of_unknown {c : Config} (read : Config.ofFile d file = .ok c) {name : String}
    (unknown : ∀ p ∈ c.projects, p.name ≠ name) (tool : Option String) :
    (openProject d environment file (some name) tool).result =
      .error (.projectNotFound name .listProjects) := by
  rw [result_openProject, read]
  simp [bind, Except.bind, Config.select_of_unknown unknown]

end

/-- All projects of a configuration can be opened exactly if the file can be read and each entry
describes a project; otherwise the error is that of the file or of the first entry that describes
none. The project of an entry is then the one that its name opens, if no entry before has that name;
the only entry is opened without a name as well, and a name that no entry has opens none. -/
theorem openings_agree (d : Disk) (environment : Option String) (file : Path) :
    let all := (openProjects d environment file).result
    let one := fun name => (openProject d environment file name none).result
    let described := fun p : ProjectEntry => (p.project d environment file none).result
    ((∃ ps, all = .ok ps) ↔
      ∃ c, Config.ofFile d file = .ok c ∧ ∀ p ∈ c.projects, ∃ q, described p = .ok q) ∧
    (∀ e, all = .error e ↔ Config.ofFile d file = .error e ∨
      ∃ c before p after, Config.ofFile d file = .ok c ∧ c.projects = before ++ p :: after ∧
        (∀ b ∈ before, ∃ q, described b = .ok q) ∧ described p = .error e) ∧
    ∀ c, Config.ofFile d file = .ok c →
      (∀ name, (∀ p ∈ c.projects, p.name ≠ name) →
        one (some name) = .error (.projectNotFound name .listProjects)) ∧
      ∀ ps, all = .ok ps → ps.length = c.projects.length ∧
        (∀ (i : Nat) (p : ProjectEntry), c.projects[i]? = some p →
          (∀ j < i, ∀ b : ProjectEntry, c.projects[j]? = some b → b.name ≠ p.name) →
          ∃ q, ps[i]? = some q ∧ one (some p.name) = .ok q) ∧
        (∀ p, c.projects = [p] → ∃ q, ps = [q] ∧ one none = .ok q) := by
  intro all one described
  refine ⟨exists_openProjects_iff, fun e => openProjects_eq_error_iff, fun c read => ⟨?unknown, ?_⟩⟩
  case unknown =>
    intro name unknown
    exact openProject_of_unknown read unknown none
  intro ps ok
  obtain ⟨c', read', each⟩ := openProjects_eq_ok_iff.mp ok
  obtain rfl : c = c' := Except.ok.inj (read.symm.trans read')
  refine ⟨each.length_eq.symm, ?named, ?only⟩
  case named =>
    intro i p there first
    obtain ⟨q, there', opened⟩ := exists_of_forall₂_getElem? each there
    have picked := Config.select_of_first there first file
    exact ⟨q, there', openProject_eq_ok_iff.mpr ⟨p, ⟨c, read, picked⟩, opened⟩⟩
  case only =>
    intro p alone
    have picked := Config.select_of_single alone file
    rw [alone] at each
    cases each with
    | cons opened rest =>
      cases rest
      exact ⟨_, rfl, openProject_eq_ok_iff.mpr ⟨p, ⟨c, read, picked⟩, opened⟩⟩

end FpgaProject
