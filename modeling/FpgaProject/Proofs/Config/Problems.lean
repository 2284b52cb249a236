import FpgaProject.Proofs.Config.Decoding
import FpgaProject.Proofs.Toml.Visits

/-!
Which problem of a configuration is reported.

The visits of a document (`Config.visits`) are its keys and values in the order in which they are
read, and what is reported is the first of their problems, but for a date in place of the generics
of a project, which is not told (`Config.misfit?_ofItem`). So whatever comes after the problem that
is reported does not matter. Main statement: `Config.first_problem_reported`.
-/

namespace FpgaProject

open Toml Toml.Item

theorem Toml.misfit?_required {α : Type} (name : String) (o : Option α) :
    misfit? (required name o) = reported? [⟨.required name o.isSome, none⟩] := by
  cases o <;> rfl

/-! ### Generics -/

theorem GenericValue.misfit?_ofItem (i : Item) :
    misfit? (within i.span (ofItem i)) = reported? (placed i.span [i.visit .generic]) := by
  rcases i with ⟨_ | _, _ | _ | _ | _ | _⟩ | ⟨_ | _, _, _⟩ | ⟨_ | _, _, _⟩ <;> rfl

namespace Generics

def visits : Item → List Visit :=
  mapVisits fun j => [j.visit .generic]

theorem misfit?_ofItem (i : Item) : misfit? (ofItem i) = reported? (visits i) := by
  rw [ofItem, misfit?_map]
  exact misfit?_asMap (fun e _ => GenericValue.misfit?_ofItem e.2) fun s => rfl

theorem overlooks_visits (i : Item) : overlooks (visits i) = i.isMoment := by
  rw [visits, overlooks_mapVisits]
  simp [overlooks, visit, overlooked_value]

end Generics

/-! ### Constraints -/

namespace Constraint

/-- The visits of what stands behind a key of a constraint. -/
def visitsBehind (name : String) (i : Item) : List Visit :=
  match name with
  | "file" => [i.visit .path]
  | "ref" => [i.visit .text]
  | _ => [i.visit .stage]

def visits : Item → List Visit :=
  recordVisits reader.fields ["file"] visitsBehind

/-- A word that is no stage has no place of its own; it gets that of its item. -/
theorem misfit?_usageOfItem (i : Item) :
    misfit? (within i.span (usageOfItem i)) = reported? (placed i.span [i.visit .stage]) := by
  rcases i with ⟨span, word | _ | _ | _ | _⟩ | _ | _
  case scalar.string =>
    have problem : (Met.value (.scalar (.string word)) .stage).told? =
        if (Usage.ofWord? word).isSome then none else some (.refused (Usage.complaint word)) := rfl
    rw [misfit?_within, reported?_placed, reported?_singleton, Visit.misfit?, Item.visit, shape,
      problem]
    cases known : Usage.ofWord? word with
    | some u =>
      have fine : usageOfItem (.scalar span (.string word)) = .ok u := by
        simp [usageOfItem, asString, bind, Except.bind, known]
      rw [fine]
      rfl
    | none =>
      have refused : usageOfItem (.scalar span (.string word)) =
          .error ⟨.refused (Usage.complaint word), none⟩ := by
        simp [usageOfItem, asString, bind, Except.bind, known]
      rw [refused]
      cases span <;> rfl
  all_goals exact misfit?_within_of rfl

theorem misfit?_ofItem {i : Item} (table : i.isTable = true) :
    misfit? (ofItem i) = reported? (visits i) := by
  cases i with
  | table span kind entries =>
    refine slots.misfit?_decode (fun e _ known s => ?behind) fun look fitting => ?finish
    case behind =>
      obtain ⟨⟨name, keySpan⟩, i⟩ := e
      simp only [reader, List.mem_cons, List.not_mem_nil, or_false] at known
      rcases known with rfl | rfl | rfl
      · exact misfit?_within_put (misfit?_within_of (misfit?_asPath i))
      · exact misfit?_within_put (misfit?_within_of (misfit?_asText i))
      · exact misfit?_within_put (misfit?_usageOfItem i)
    case finish =>
      rw [List.map_singleton, ← isSome_file_filled fitting, ← misfit?_required]
      exact misfit?_put _
  | _ => cases table

theorem overlooks_visits (i : Item) : overlooks (visits i) = false := by
  have one : ∀ name j, overlooks (visitsBehind name j) = false := by
    intro name j
    unfold visitsBehind
    split <;> simp [overlooks, visit, overlooked_value]
  simp [visits, overlooks_recordVisits, one]

end Constraint

/-! ### Entries -/

namespace ProjectEntry

/-- The visits of what stands behind a key of a project. -/
def visitsBehind (name : String) (i : Item) : List Visit :=
  match name with
  | "name" | "part" | "top" | "vivado" => [i.visit .text]
  | "modules" => i.listVisits fun j => [j.visit .path]
  | "names" => i.listVisits fun j => [j.visit .text]
  | "library-suffix" => [i.visit .flag]
  | "generics" => Generics.visits i
  | "constraint" => i.listVisits Constraint.visits
  | _ => [i.visit .path]

def visits : Item → List Visit :=
  recordVisits reader.fields ["name", "part"] visitsBehind

theorem misfit?_pathOfItem (i : Item) : misfit? (pathOfItem i) = reported? [i.visit .path] :=
  (misfit?_put _).trans (misfit?_asPath i)

theorem misfit?_ofItem {i : Item} (table : i.isTable = true)
    (shaped : (i.given "constraint").all (isListOf isTable) = true) :
    misfit? (ofItem i) = reported? (visits i) := by
  cases i with
  | table span kind entries =>
    refine (slots Generics.reads_ofItem (reads_self Constraint.ofItem)).misfit?_decode
      (fun e member known s => ?behind) fun look fitting => ?finish
    case behind =>
      obtain ⟨⟨name, keySpan⟩, i⟩ := e
      simp only [reader, List.mem_cons, List.not_mem_nil, or_false] at known
      rcases known with rfl | rfl | rfl | rfl | rfl | rfl | rfl | rfl | rfl | rfl | rfl
      · exact misfit?_within_put (misfit?_within_of (misfit?_asText i))
      · exact misfit?_within_put (misfit?_within_of (misfit?_asText i))
      · exact misfit?_within_put (misfit?_within_of (misfit?_asText i))
      · exact misfit?_within_put (misfit?_within_of (misfit?_pathOfItem i))
      · exact misfit?_within_put (misfit?_within_of (misfit?_asText i))
      · exact misfit?_within_put
          (misfit?_within_of (misfit?_asList fun j _ => misfit?_pathOfItem j))
      · exact misfit?_within_put
          (misfit?_within_of (misfit?_asList fun j _ => misfit?_asText j))
      · exact misfit?_within_put (misfit?_within_of (misfit?_asBoolean i))
      · exact misfit?_within_put (misfit?_within_of (Generics.misfit?_ofItem i))
      · have lists := List.all_eq_true.mp shaped i (mem_given.mpr ⟨_, member, rfl, rfl⟩)
        refine misfit?_within_put (misfit?_within_of (misfit?_asList fun j inside => ?_))
        cases i with
        | list span kind items =>
          exact Constraint.misfit?_ofItem (List.all_eq_true.mp lists j inside)
        | _ => cases lists
      · exact misfit?_within_put (misfit?_within_of (misfit?_pathOfItem i))
    case finish =>
      obtain ⟨name, part⟩ := isSome_filled fitting
      have second : ∀ a, required "name" (filled look).name = .ok a → misfit?
          (required "part" (filled look).part >>= fun b =>
            .ok { (filled look).entry with name := a, part := b }) =
          reported? [⟨.required "part" (filled look).part.isSome, none⟩] :=
        fun a _ => (misfit?_put _).trans (misfit?_required _ _)
      refine (misfit?_bind second).trans ?_
      rw [misfit?_required, ← reported?_append, name, part]
      rfl
  | _ => cases table

theorem overlooks_visitsBehind (name : String) (i : Item) :
    overlooks (visitsBehind name i) = (decide (name = "generics") && i.isMoment) := by
  have text (j : Item) : overlooks [j.visit .text] = false := by
    simp [overlooks, visit, overlooked_value]
  have path (j : Item) : overlooks [j.visit .path] = false := by
    simp [overlooks, visit, overlooked_value]
  by_cases generics : name = "generics"
  · subst generics
    exact Generics.overlooks_visits i
  · rw [decide_eq_false generics, Bool.false_and]
    unfold visitsBehind
    split
    case h_7 => simp [overlooks, visit, overlooked_value]
    case h_8 => exact absurd rfl generics
    all_goals simp [text, path, overlooks_listVisits, Constraint.overlooks_visits]

theorem overlooks_visits (i : Item) :
    overlooks (visits i) = (i.given "generics").any isMoment := by
  have known : ∀ name, (decide (name ∈ reader.fields) && decide (name = "generics")) =
      decide (name = "generics") := by
    intro name
    by_cases generics : name = "generics"
    · subst generics
      rfl
    · simp [generics]
  rw [visits, overlooks_recordVisits]
  simp only [overlooks_visitsBehind, ← Bool.and_assoc, known]
  cases i with
  | table span kind entries => exact any_given.symm
  | _ => rfl

end ProjectEntry

/-! ### Configurations -/

namespace Config

/-- The visits of a document that is read as a configuration. -/
def visits : Item → List Visit :=
  recordVisits reader.fields [] fun _ i => i.listVisits ProjectEntry.visits

theorem misfit?_ofItem {i : Item} (table : i.isTable = true) (arrays : shaped i = true) :
    misfit? (ofItem i) = reported? (visits i) := by
  cases i with
  | table span kind entries =>
    refine (slots (reads_self ProjectEntry.ofItem)).misfit?_decode
      (fun e member known s => ?behind) fun look fitting => rfl
    case behind =>
      obtain ⟨⟨name, keySpan⟩, i⟩ := e
      obtain rfl : name = "project" := by simpa [reader] using known
      have lists := List.all_eq_true.mp arrays i (mem_given.mpr ⟨_, member, rfl, rfl⟩)
      refine misfit?_within_of (misfit?_asList fun j inside => ?_)
      cases i with
      | list span kind items =>
        obtain ⟨table, constraints⟩ := Bool.and_eq_true_iff.mp (List.all_eq_true.mp lists j inside)
        exact ProjectEntry.misfit?_ofItem table constraints
      | _ => cases lists
  | _ => cases table

theorem overlooks_visits (i : Item) : overlooks (visits i) = bindsMoment i := by
  cases i with
  | table span kind entries =>
    rw [visits, overlooks_recordVisits, bindsMoment, described, List.any_flatMap, any_given]
    simp [overlooks_listVisits, ProjectEntry.overlooks_visits, reader, Item.entries]
  | _ => rfl

/-- Nothing is wrong with what is met exactly if the document describes a configuration. -/
theorem forall_problem?_visits_iff {i : Item} (table : i.isTable = true)
    (arrays : shaped i = true) :
    (∀ v ∈ visits i, v.met.problem? = none) ↔ accepts isBindings i = true := by
  rw [forall_problem?_eq_none_iff, overlooks_visits, ← misfit?_ofItem table arrays,
    misfit?_eq_none_iff, exists_ofItem_iff table arrays, accepts_isBindings, Bool.and_eq_true,
    Bool.not_eq_true']

theorem ofText_eq_error_iff {source : String} {t : Table} {f : Failure}
    (parsed : Table.ofText? source = some t) :
    ofText source = .error f ↔ ∃ m, misfit? (ofItem t.item) = some m ∧ f = .misfit source m := by
  unfold ofText decodeText
  rw [parsed]
  cases outcome : ofItem t.item <;> simp [misfit?, outcome, eq_comm]

/-- A text is refused exactly for the first problem that is told of its document. -/
theorem ofText_eq_error_iff_first {source : String} {t : Table} {f : Failure}
    (parsed : Table.ofText? source = some t) (arrays : shaped t.item = true) :
    ofText source = .error f ↔ ∃ before v problem,
      First Met.told? (visits t.item) before v problem ∧ f = .misfit source ⟨problem, v.span⟩ := by
  have table : t.item.isTable = true := rfl
  rw [ofText_eq_error_iff parsed, misfit?_ofItem table arrays]
  simp only [reported?_eq_some_iff]
  constructor
  · rintro ⟨_, ⟨before, v, problem, first, rfl⟩, rfl⟩
    exact ⟨before, v, problem, first, rfl⟩
  · rintro ⟨before, v, problem, first, rfl⟩
    exact ⟨_, ⟨before, v, problem, first, rfl⟩, rfl⟩

/-- The first of all problems is told unless it is overlooked; then it is told nowhere. -/
theorem reported_iff_of_first {source : String} {t : Table} (parsed : Table.ofText? source = some t)
    (arrays : shaped t.item = true) {before : List Visit} {v : Visit} {problem : Problem}
    (first : First Met.problem? (visits t.item) before v problem) :
    ofText source = .error (.misfit source ⟨problem, v.span⟩) ↔ v.met.overlooked = false := by
  rw [ofText_eq_error_iff_first parsed arrays]
  constructor
  · rintro ⟨before', v', problem', told, same⟩
    obtain ⟨rfl, -⟩ := Misfit.mk.inj (Failure.misfit.inj same).2
    apply eq_false_of_ne_true
    intro unseen
    exact Met.told?_ne_of_overlooked unseen v'.met (told.found.trans first.found.symm)
  · intro seen
    have silent : ∀ b ∈ before, b.met.told? = none := by
      intro b member
      exact (Met.problem?_eq_none_iff.mp (first.silent b member)).1
    have told : v.met.told? = some problem := (Met.told?_of_not_overlooked seen).trans first.found
    exact ⟨before, v, problem, ⟨first.comes, silent, told⟩, rfl⟩

/-- What is said about a text, if `i` is its document. -/
structure Complains (source : String) (i : Item) : Prop where
  /-- What is met has no problem exactly if the document describes a configuration. -/
  fits : (∀ v ∈ visits i, v.met.problem? = none) ↔ accepts isBindings i = true
  /-- The text is read as a configuration exactly if no problem is told. -/
  read : (∃ c, ofText source = .ok c) ↔ ∀ v ∈ visits i, v.met.told? = none
  /-- Otherwise it is refused for the first problem that is told, and for no other reason. -/
  refused : ∀ f, ofText source = .error f ↔ ∃ before v problem,
    First Met.told? (visits i) before v problem ∧ f = .misfit source ⟨problem, v.span⟩
  /-- So it is for the first of all problems, unless this is one that is overlooked. -/
  first : ∀ before v problem, First Met.problem? (visits i) before v problem →
    (ofText source = .error (.misfit source ⟨problem, v.span⟩) ↔ v.met.overlooked = false)
  /-- The same problem is reported of any other text, if the same is met in it up to there. -/
  kept : ∀ before v problem, First Met.told? (visits i) before v problem →
    ∀ source' t', Table.ofText? source' = some t' → shaped t'.item = true →
      (before ++ [v]).map Visit.met <+: (visits t'.item).map Visit.met →
      ∃ span, ofText source' = .error (.misfit source' ⟨problem, span⟩)

/-- Which problem of a document is reported, for all documents in which projects and constraints are
arrays of tables: the first one that is met, where keys are read in their order, what stands behind
a key when it is met, and required fields at the end of their table. The one exception is a date in
place of generics. -/
theorem first_problem_reported {source : String} {t : Table}
    (parsed : Table.ofText? source = some t) (arrays : shaped t.item = true) :
    Complains source t.item := by
  have table : t.item.isTable = true := rfl
  refine ⟨forall_problem?_visits_iff table arrays, ?read,
    fun f => ofText_eq_error_iff_first parsed arrays, ?first, ?kept⟩
  case read =>
    rw [← reported?_eq_none_iff, ← misfit?_ofItem table arrays, misfit?_eq_none_iff]
    simp only [ofText_eq_ok_iff parsed]
  case first =>
    intro before v problem first
    exact reported_iff_of_first parsed arrays first
  case kept =>
    intro before v problem first source' t' parsed' arrays' same
    obtain ⟨before', v', first'⟩ := first.of_met same
    exact ⟨v'.span,
      (ofText_eq_error_iff_first parsed' arrays').mpr ⟨before', v', problem, first', rfl⟩⟩

/-- A document with a fault of each kind, the first of which stands in a constraint. -/
def faultyText : String :=
  "[[project]]\npart = \"p\"\n[[project.constraint]]\nused-in = \"never\"\n" ++
    "[[project]]\ncolour = 1\ntop = 2\ngenerics = \x7b w = [] \x7d\n"

theorem faultyText_refused : ∃ t span, Table.ofText? faultyText = some t ∧ shaped t.item = true ∧
    Complains faultyText t.item ∧ ofText faultyText =
      .error (.misfit faultyText ⟨.refused (Usage.complaint "never"), span⟩) := by
  have read : (Table.ofText? faultyText).any (fun t => shaped t.item &&
      (reported? (visits t.item)).any (·.problem = .refused (Usage.complaint "never"))) = true := by
    decide +kernel
  obtain ⟨t, parsed, passes⟩ := (Option.any_eq_true _ _).mp read
  obtain ⟨arrays, ok⟩ := Bool.and_eq_true_iff.mp passes
  obtain ⟨m, reported, named⟩ := (Option.any_eq_true _ _).mp ok
  obtain ⟨before, v, problem, first, rfl⟩ := reported?_eq_some_iff.mp reported
  obtain rfl := of_decide_eq_true named
  have complains := first_problem_reported parsed arrays
  exact ⟨t, v.span, parsed, arrays, complains, (complains.refused _).mpr ⟨_, _, _, first, rfl⟩⟩

/-- A project with a date in place of its generics, and after it a key that is not known. -/
def datedFaultyText : String :=
  "[[project]]\nname = \"a\"\npart = \"p\"\ngenerics = 1979-05-27\nfoo = 1\n"

/-- The date is the first problem that is met, but the key after it is the one that is reported. -/
theorem datedFaultyText_refused : ∃ t before v span,
    Table.ofText? datedFaultyText = some t ∧ shaped t.item = true ∧
    First Met.problem? (visits t.item) before v (.wrongType .map "a map") ∧
    ofText datedFaultyText = .error (.misfit datedFaultyText
      ⟨.unknownField "foo" ProjectEntry.reader.fields, span⟩) := by
  have read : (Table.ofText? datedFaultyText).any (fun t => shaped t.item &&
      ((visits t.item).find? (·.met.problem?.isSome)).any
        (·.met.problem? = some (.wrongType .map "a map")) &&
      (reported? (visits t.item)).any
        (·.problem = .unknownField "foo" ProjectEntry.reader.fields)) = true := by decide +kernel
  obtain ⟨t, parsed, passes⟩ := (Option.any_eq_true _ _).mp read
  simp only [Bool.and_eq_true] at passes
  obtain ⟨⟨arrays, date⟩, key⟩ := passes
  obtain ⟨v, found, wrong⟩ := (Option.any_eq_true _ _).mp date
  obtain ⟨-, before, after, split, silent⟩ := List.find?_eq_some_iff_append.mp found
  have first : First Met.problem? (visits t.item) before v (.wrongType .map "a map") := by
    refine ⟨⟨after, by simp [split]⟩, fun b member => ?_, of_decide_eq_true wrong⟩
    simpa using silent b member
  obtain ⟨⟨problem, span⟩, reported, named⟩ := (Option.any_eq_true _ _).mp key
  obtain rfl := of_decide_eq_true named
  have table : t.item.isTable = true := rfl
  rw [← misfit?_ofItem table arrays] at reported
  exact ⟨t, before, v, span, parsed, arrays, first,
    (ofText_eq_error_iff parsed).mpr ⟨_, reported, rfl⟩⟩

end Config

end FpgaProject
