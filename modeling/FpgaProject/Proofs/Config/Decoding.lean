import FpgaProject.Config
import FpgaProject.Proofs.Toml.Record
import FpgaProject.Proofs.Config.Serialization

/-!
Which documents are configurations.

A document is described by what stands behind its keys: `Constraint.accepts`, `ProjectEntry.accepts`
and `Config.accepts` say which tables describe a constraint, a project and a configuration. Reading
agrees with them, but for one thing: a date in place of the generics of a project is taken for a
table with a key of its own (`Generics.isMapOf_isValue`). The value does not depend on the order of
the keys in the tables of projects and constraints (`respects_ofItem` of each), while generics follow
the order of theirs (`Generics.Follows`). Main statement: `Config.documents_decode`.
-/

namespace FpgaProject.Toml.Item

/-! ### Tests -/

/-- Whether the item names the stages in which a constraint is used. -/
def isStage : Item → Bool
  | .scalar _ (.string s) => ["all", "synth", "impl"].contains s
  | _ => false

/-- Whether the item is the value of a generic: a truth value, an integer, a real number or a
text. -/
def isValue : Item → Bool
  | .scalar _ (.boolean _) | .scalar _ (.integer _) | .scalar _ (.real _)
  | .scalar _ (.string _) => true
  | _ => false

/-- Whether the item is a table of values of generics. -/
def isBindings : Item → Bool
  | .table _ _ entries => entries.all fun e => e.2.isValue
  | _ => false

/-- Whether the item is a table of values of generics, or a date. -/
def isBindingsOrMoment (i : Item) : Bool :=
  i.isBindings || i.isMoment

theorem isBindings_eq (i : Item) : i.isBindings = (i.isBindingsOrMoment && !i.isMoment) := by
  rcases i with ⟨_, _ | _ | _ | _ | _⟩ | _ | _ <;>
    simp [isBindingsOrMoment, isBindings, isMoment]

end FpgaProject.Toml.Item

namespace FpgaProject

open Toml Toml.Item

/-! ### Generics -/

theorem GenericValue.reads_ofItem : Reads ofItem isValue := by
  intro i
  rcases i with ⟨_, _ | _ | _ | _ | _⟩ | _ | _ <;> simp [ofItem, isValue]

theorem GenericValue.respects_ofItem : Respects Same ofItem := by
  refine respects_of_scalar fun i v reading => ?_
  unfold ofItem at reading
  split at reading <;> cases reading <;> exact ⟨_, _, rfl, fun _ => rfl⟩

namespace Generics

/-- A date is taken for a table with one key of its own and the date as a text behind it. -/
theorem isMapOf_isValue : isMapOf isValue = isBindingsOrMoment := by
  funext i
  rcases i with ⟨_, _ | _ | _ | _ | _⟩ | _ | _ <;>
    simp [isMapOf, entries?, isBindingsOrMoment, isBindings, isMoment, isValue, Item.ofString]

theorem reads_ofItem : Reads ofItem isBindingsOrMoment := by
  intro i
  rw [← isMapOf_isValue, ← GenericValue.reads_ofItem.asMap i]
  exact exists_map_eq_ok_iff

theorem respects_ofItem : Respects Same ofItem := by
  intro i j g proper same reading
  obtain ⟨bs, bound, rfl⟩ := map_eq_ok_iff.mp reading
  exact map_eq_ok_iff.mpr ⟨bs, GenericValue.respects_ofItem.asMap i j bs proper same bound, rfl⟩

/-- Bindings that are as entries write them: the names in the order of the keys, each with the value
that stands behind its key; and in this order they are listed for the tool. -/
structure Follows (entries : List (Key × Item)) (g : Generics) : Prop where
  bound : List.Forall₂ (fun e b => b.1 = e.1.name ∧ GenericValue.ofItem e.2 = .ok b.2)
    entries g.bindings
  listed : ∃ words, List.Forall₂ (fun e word => ∃ v, GenericValue.ofItem e.2 = .ok v ∧
    word = e.1.name ++ "=" ++ v.rendered) entries words ∧ g.tclList = " ".intercalate words

theorem follows_of_ofItem {span : Option Span} {kind : TableKind} {entries : List (Key × Item)}
    {g : Generics} (proper : (Item.table span kind entries).Proper)
    (reading : ofItem (.table span kind entries) = .ok g) : Follows entries g := by
  obtain ⟨distinct, -⟩ := Item.proper_table_iff.mp proper
  obtain ⟨bs, each, rfl⟩ := map_eq_ok_iff.mp reading
  simp only [Item.asMap, entries?, within_eq_ok_iff, mapM_eq_ok_iff] at each
  have bound : List.Forall₂ (fun e b => b.1 = e.1.name ∧ GenericValue.ofItem e.2 = .ok b.2)
      entries bs := by
    refine each.imp fun e b first => ?_
    obtain ⟨v, value, rfl⟩ := map_eq_ok_iff.mp first
    exact ⟨rfl, value⟩
  have names : entries.map (·.1.name) = bs.map Prod.fst := by
    rw [← List.forall₂_eq_eq_eq, List.forall₂_map_left_iff, List.forall₂_map_right_iff]
    exact bound.imp fun e b same => same.1.symm
  have same : (ofList bs).bindings = bs := bindings_ofList (names ▸ distinct)
  refine ⟨same.symm ▸ bound, bs.map fun b => b.1 ++ "=" ++ b.2.rendered, ?_, by rw [tclList, same]⟩
  rw [List.forall₂_map_right_iff]
  exact bound.imp fun e b same => ⟨b.2, same.2, by rw [same.1]⟩

end Generics

/-! ### Constraints -/

theorem Usage.isSome_ofWord? (s : String) :
    (ofWord? s).isSome = ["all", "synth", "impl"].contains s := by
  unfold ofWord?
  split <;> simp_all

namespace Constraint

/-- The keys of a constraint, and what may stand behind each of them. -/
def declared : List (String × (Item → Bool)) :=
  [("file", isText), ("ref", isText), ("used-in", isStage)]

/-- Whether a table describes a constraint. -/
def accepts : Item → Bool :=
  isRecord declared ["file"]

/-- What has been read of a constraint, given what is known of each key. -/
def filled (look : String → Option Item) : Fields where
  file := (valueOf (asString "path string") look "file").map Path.mk
  reference := valueOf (asString "a string") look "ref"
  usage := (valueOf usageOfItem look "used-in").getD .all

theorem reads_usageOfItem : Reads usageOfItem isStage := by
  intro i
  rcases i with ⟨_, s | _ | _ | _ | _⟩ | _ | _
  · simp only [usageOfItem, asString, bind_eq_ok_iff, isStage, Except.ok.injEq, exists_eq_left',
      ← Usage.isSome_ofWord?]
    cases Usage.ofWord? s <;> simp
  all_goals simp [usageOfItem, isStage, asString, bind, Except.bind]

/-- There is a file if its key is there. -/
theorem isSome_file_filled {look : String → Option Item}
    (fitting : ∀ name p i, declared.lookup name = some p → look name = some i → p i = true) :
    (filled look).file.isSome = (look "file").isSome := by
  rw [filled, Option.isSome_map]
  exact isSome_valueOf (reads_asString _) (fitting "file" isText · rfl)

theorem slots : Slots reader declared ["file"] filled where
  fields := rfl
  start := rfl
  read := by
    simp only [declared, List.forall_mem_cons, List.not_mem_nil, false_implies, implies_true,
      and_true]
    refine ⟨fun look i => slot_iff (reads_asString _) fun b hb => ?_,
      fun look i => slot_iff (reads_asString _) fun b hb => ?_,
      fun look i => slot_iff reads_usageOfItem fun b hb => ?_⟩ <;>
    simp only [filled, valueOf_told_self hb, valueOf_told_of_ne, ne_eq, String.reduceEq,
      not_false_eq_true, Option.map_some, Option.getD_some]
  finish look fitting := by
    simp [reader, bind_eq_ok_iff, required_eq_ok_iff, ← Option.isSome_iff_exists,
      isSome_file_filled fitting]

theorem exists_ofItem_iff {i : Item} (table : i.isTable = true) :
    (∃ c, ofItem i = .ok c) ↔ accepts i = true := by
  cases i with
  | table span kind entries => exact slots.exists_decode_iff
  | _ => cases table

/-- The tables of constraints with the same keys, in any order. -/
def Reordered : Item → Item → Prop :=
  Item.Reordered fun _ => Same

theorem reordered_of_perm {span : Option Span} {kind : TableKind}
    {entries entries' : List (Key × Item)} (perm : entries.Perm entries') :
    Reordered (.table span kind entries) (.table span kind entries') :=
  .table _ _ _ _ perm (List.forall₂_same.mpr fun e _ => ⟨rfl, .refl e.2⟩)

theorem elementwise_reordered {i : Item} (arrays : isListOf isTable i = true) :
    Elementwise Reordered i i := by
  cases i with
  | list span kind items =>
    refine .list _ _ _ _ (List.forall₂_same.mpr fun j hj => ?_)
    have table := List.all_eq_true.mp arrays j hj
    cases j with
    | table => exact reordered_of_perm (.refl _)
    | _ => cases table
  | _ => cases arrays

theorem respects_usageOfItem : Respects Same usageOfItem :=
  (respects_asString _).put

theorem respects_ofItem : Respects Reordered ofItem := by
  refine slots.respects ?_
  simp only [declared, List.forall_mem_cons, List.not_mem_nil, false_implies, implies_true,
    and_true]
  exact ⟨fun s => (respects_asString _).put, fun s => (respects_asString _).put,
    fun s => respects_usageOfItem.put⟩

end Constraint

/-! ### Entries -/

namespace ProjectEntry

/-- The keys of an entry, and what may stand behind each of them. -/
def declared (bindings constraint : Item → Bool) : List (String × (Item → Bool)) :=
  [("name", isText), ("part", isText), ("top", isText), ("block-design", isText),
    ("vivado", isText), ("modules", isListOf isText), ("names", isListOf isText),
    ("library-suffix", isFlag), ("generics", bindings), ("constraint", isListOf constraint),
    ("clock-crossings", isText)]

/-- What has been read of an entry, given what is known of each key. -/
def filled (look : String → Option Item) : Fields where
  name := valueOf stringOfItem look "name"
  part := valueOf stringOfItem look "part"
  entry :=
    { name := ""
      part := ""
      top := valueOf stringOfItem look "top"
      blockDesign := valueOf pathOfItem look "block-design"
      tool := valueOf stringOfItem look "vivado"
      modules := (valueOf (asList pathOfItem) look "modules").getD []
      names := valueOf (asList stringOfItem) look "names"
      librarySuffix := (valueOf asBoolean look "library-suffix").getD false
      generics := (valueOf Generics.ofItem look "generics").getD .empty
      constraints := (valueOf (asList Constraint.ofItem) look "constraint").getD []
      clockCrossings := valueOf pathOfItem look "clock-crossings" }

theorem reads_stringOfItem : Reads stringOfItem isText :=
  reads_asString _

theorem reads_pathOfItem : Reads pathOfItem isText := by
  intro i
  simp only [pathOfItem, bind_eq_ok_iff, ← reads_asString "path string" i]
  constructor
  · rintro ⟨_, s, reading, -⟩
    exact ⟨s, reading⟩
  · rintro ⟨s, reading⟩
    exact ⟨_, s, reading, rfl⟩

/-- There are a name and a part if their keys are there. -/
theorem isSome_filled {bindings constraint : Item → Bool} {look : String → Option Item}
    (fitting : ∀ name p i, (declared bindings constraint).lookup name = some p →
      look name = some i → p i = true) :
    (filled look).name.isSome = (look "name").isSome ∧
      (filled look).part.isSome = (look "part").isSome :=
  ⟨isSome_valueOf reads_stringOfItem (fitting "name" isText · rfl),
    isSome_valueOf reads_stringOfItem (fitting "part" isText · rfl)⟩

theorem slots {bindings constraint : Item → Bool} (hb : Reads Generics.ofItem bindings)
    (hc : Reads Constraint.ofItem constraint) :
    Slots reader (declared bindings constraint) ["name", "part"] filled where
  fields := rfl
  start := rfl
  read := by
    simp only [declared, List.forall_mem_cons, List.not_mem_nil, false_implies, implies_true,
      and_true]
    refine ⟨fun look i => slot_iff reads_stringOfItem fun b hb => ?_,
      fun look i => slot_iff reads_stringOfItem fun b hb => ?_,
      fun look i => slot_iff reads_stringOfItem fun b hb => ?_,
      fun look i => slot_iff reads_pathOfItem fun b hb => ?_,
      fun look i => slot_iff reads_stringOfItem fun b hb => ?_,
      fun look i => slot_iff reads_pathOfItem.asList fun b hb => ?_,
      fun look i => slot_iff reads_stringOfItem.asList fun b hb => ?_,
      fun look i => slot_iff reads_asBoolean fun b hb => ?_,
      fun look i => slot_iff hb fun b hb => ?_,
      fun look i => slot_iff hc.asList fun b hb => ?_,
      fun look i => slot_iff reads_pathOfItem fun b hb => ?_⟩ <;>
    simp only [filled, valueOf_told_self hb, valueOf_told_of_ne, ne_eq, String.reduceEq,
      not_false_eq_true, Option.getD_some]
  finish look fitting := by
    obtain ⟨name, part⟩ := isSome_filled fitting
    simp [reader, bind_eq_ok_iff, required_eq_ok_iff, ← Option.isSome_iff_exists, name, part]

/-- Whether a table describes a project; what may stand behind `generics` is left open. -/
def accepts (bindings : Item → Bool) : Item → Bool :=
  isRecord (declared bindings Constraint.accepts) ["name", "part"]

/-- The keys of an entry but for two, and what may stand behind each of them. -/
def plain : List (String × (Item → Bool)) :=
  [("name", isText), ("part", isText), ("top", isText), ("block-design", isText),
    ("vivado", isText), ("modules", isListOf isText), ("names", isListOf isText),
    ("library-suffix", isFlag), ("clock-crossings", isText)]

theorem lookup_declared (bindings constraint : Item → Bool) (name : String) :
    (declared bindings constraint).lookup name =
      if name = "generics" then some bindings
      else if name = "constraint" then some (isListOf constraint)
      else plain.lookup name := by
  by_cases hg : name = "generics"
  · subst hg
    rfl
  · by_cases hc : name = "constraint"
    · subst hc
      rfl
    · have generics : (name == "generics") = false := by simp [hg]
      have constraint : (name == "constraint") = false := by simp [hc]
      simp [declared, plain, List.lookup_cons, generics, constraint, hg, hc]

/-- The tables of projects with the same keys, in any order, also those of their constraints. -/
def Reordered : Item → Item → Prop :=
  Item.Reordered fun name => if name = "constraint" then Elementwise Constraint.Reordered else Same

/-- Permuting the keys of a project gives such a table. -/
theorem reordered_of_perm {span : Option Span} {kind : TableKind}
    {entries entries' : List (Key × Item)}
    (arrays : ((Item.table span kind entries).given "constraint").all (isListOf isTable) = true)
    (perm : entries.Perm entries') :
    Reordered (.table span kind entries) (.table span kind entries') := by
  refine .table _ _ _ _ perm (List.forall₂_same.mpr fun e he => ⟨rfl, ?_⟩)
  split
  · next name =>
    have lists := List.all_eq_true.mp arrays e.2
      (mem_given.mpr ⟨e, perm.mem_iff.mpr he, name, rfl⟩)
    exact Constraint.elementwise_reordered lists
  · exact .refl e.2

theorem respects_stringOfItem : Respects Same stringOfItem :=
  respects_asString _

theorem respects_pathOfItem : Respects Same pathOfItem :=
  (respects_asString _).put

theorem respects_ofItem : Respects Reordered ofItem := by
  refine (slots Generics.reads_ofItem (reads_self Constraint.ofItem)).respects ?_
  simp only [declared, List.forall_mem_cons, List.not_mem_nil, false_implies, implies_true,
    and_true, String.reduceEq, if_false, if_true]
  exact ⟨fun s => respects_stringOfItem.put, fun s => respects_stringOfItem.put,
    fun s => respects_stringOfItem.put, fun s => respects_pathOfItem.put,
    fun s => respects_stringOfItem.put, fun s => respects_pathOfItem.asList_same.put,
    fun s => respects_stringOfItem.asList_same.put, fun s => respects_asBoolean.put,
    fun s => Generics.respects_ofItem.put, fun s => Constraint.respects_ofItem.asList.put,
    fun s => respects_pathOfItem.put⟩

/-- An entry fits alike whatever is asked of the items behind other keys. -/
theorem fits_declared_congr {bindings bindings' constraint constraint' : Item → Bool}
    {e : Key × Item} (generics : e.1.name = "generics" → bindings e.2 = bindings' e.2)
    (constraints : e.1.name = "constraint" →
      isListOf constraint e.2 = isListOf constraint' e.2) :
    fits (declared bindings constraint) e = fits (declared bindings' constraint') e := by
  unfold fits
  rw [lookup_declared, lookup_declared]
  by_cases hg : e.1.name = "generics"
  · simp [hg, generics hg]
  · by_cases hc : e.1.name = "constraint"
    · simp [hc, constraints hc]
    · simp [hg, hc]

theorem exists_ofItem_iff {i : Item} (table : i.isTable = true)
    (shaped : (i.given "constraint").all (isListOf isTable) = true) :
    (∃ p, ofItem i = .ok p) ↔ accepts isBindingsOrMoment i = true := by
  cases i with
  | table span kind entries =>
    refine (slots Generics.reads_ofItem (reads_self Constraint.ofItem)).exists_decode_iff.trans ?_
    -- What a constraint reads decides for all items, tables or not; on tables it is `accepts`.
    have same : ∀ e ∈ entries, fits (declared isBindingsOrMoment
          fun i => (Constraint.ofItem i).toBool) e =
        fits (declared isBindingsOrMoment Constraint.accepts) e := by
      refine fun e he => fits_declared_congr (fun _ => rfl) fun name => ?_
      have lists := List.all_eq_true.mp shaped e.2 (mem_given.mpr ⟨e, he, name, rfl⟩)
      refine Item.isListOf_congr lists fun j table => ?_
      rw [Bool.eq_iff_iff, ← reads_self Constraint.ofItem j, Constraint.exists_ofItem_iff table]
    rw [accepts, Item.isRecord_congr same]
  | _ => cases table

/-- What stands behind `generics` is values of generics if it is no date. -/
theorem fits_isBindings (constraint : Item → Bool) (e : Key × Item) :
    fits (declared isBindings constraint) e =
      (fits (declared isBindingsOrMoment constraint) e &&
        !(decide (e.1.name = "generics") && e.2.isMoment)) := by
  unfold fits
  rw [lookup_declared, lookup_declared]
  by_cases hg : e.1.name = "generics"
  · simp [hg, isBindings_eq e.2]
  · simp [hg]

theorem accepts_isBindings (i : Item) : accepts isBindings i =
    (accepts isBindingsOrMoment i && !(i.given "generics").any isMoment) := by
  cases i with
  | table span kind entries =>
    have fit : fits (declared isBindings Constraint.accepts) = _ := funext (fits_isBindings _)
    simp only [accepts, isRecord, fit, all_and_not, any_given, Bool.and_right_comm]
  | _ => rfl

theorem generics_of_finish {s : Fields} {p : ProjectEntry} (finished : reader.finish s = .ok p) :
    p.generics = s.entry.generics := by
  simp only [reader, bind_eq_ok_iff] at finished
  obtain ⟨_, _, _, _, same⟩ := finished
  cases same
  rfl

theorem follows_of_ofItem {i : Item} {p : ProjectEntry} (proper : i.Proper)
    (reading : ofItem i = .ok p) {span : Option Span} {kind : TableKind}
    {entries : List (Key × Item)} (given : .table span kind entries ∈ i.given "generics") :
    p.generics.Follows entries := by
  cases i with
  | table span' kind' all =>
    obtain ⟨distinct, inside⟩ := Item.proper_table_iff.mp proper
    obtain ⟨e, member, name, behind⟩ := mem_given.mp given
    have shape := slots Generics.reads_ofItem (reads_self Constraint.ofItem)
    obtain ⟨fit, finished⟩ := shape.decode_eq_ok_iff.mp reading
    have known : toldAll untold all "generics" = some (.table span kind entries) :=
      (toldAll_eq_some_iff distinct).mpr ⟨e, member, name, behind⟩
    have fits : isBindingsOrMoment e.2 = true := by
      simpa [Toml.fits, lookup_declared, name] using List.all_eq_true.mp fit e member
    obtain ⟨g, bound⟩ := (Generics.reads_ofItem e.2).mpr fits
    have generics : p.generics = g := by
      rw [generics_of_finish finished]
      simp [filled, valueOf, known, ← behind, bound, Except.toOption]
    subst generics
    exact Generics.follows_of_ofItem (behind ▸ inside e member) (behind ▸ bound)
  | _ => cases given

end ProjectEntry

/-! ### Configurations -/

namespace Config

/-- Whether a table describes a configuration; what may stand behind the key `generics` of a project
is left open. -/
def accepts (bindings : Item → Bool) : Item → Bool :=
  isRecord [("project", isListOf (ProjectEntry.accepts bindings))] []

def described (i : Item) : List Item :=
  (i.given "project").flatMap elements

theorem proper_of_described {i p : Item} (proper : i.Proper) (h : p ∈ described i) : p.Proper := by
  obtain ⟨projects, given, inside⟩ := List.mem_flatMap.mp h
  exact (proper.of_given given).of_elements inside

/-- Whether the projects of a document, and the constraints of each, are arrays of tables wherever
they are given. -/
def shaped (i : Item) : Bool :=
  (i.given "project").all fun projects => projects.isListOf fun p =>
    p.isTable && (p.given "constraint").all (isListOf isTable)

/-- Whether a date stands where a project has its generics. -/
def bindsMoment (i : Item) : Bool :=
  (described i).any fun p => (p.given "generics").any isMoment

/-- The documents with the same keys in the tables of projects and constraints, in any order. -/
def Reordered : Item → Item → Prop :=
  Item.Reordered fun _ => Elementwise ProjectEntry.Reordered

/-- What has been read of a configuration, given what is known of each key. -/
def filled (look : String → Option Item) : List ProjectEntry :=
  (valueOf (asList ProjectEntry.ofItem) look "project").getD []

theorem slots {project : Item → Bool} (hp : Reads ProjectEntry.ofItem project) :
    Slots reader [("project", isListOf project)] [] filled where
  fields := rfl
  start := rfl
  read := by
    simp only [List.forall_mem_cons, List.not_mem_nil, false_implies, implies_true, and_true]
    intro look i ps
    rw [← hp.asList i]
    cases outcome : asList ProjectEntry.ofItem i <;>
      simp [reader, filled, valueOf, told, outcome, Except.toOption]
  finish look _ := by simp [reader]

theorem respects_ofItem : Respects Reordered ofItem := by
  refine (slots (reads_self ProjectEntry.ofItem)).respects ?_
  simp only [List.forall_mem_cons, List.not_mem_nil, false_implies, implies_true, and_true]
  exact fun s => ProjectEntry.respects_ofItem.asList

theorem isListOf_isBindings (i : Item) : isListOf (ProjectEntry.accepts isBindings) i =
    (isListOf (ProjectEntry.accepts isBindingsOrMoment) i &&
      !i.elements.any fun p => (p.given "generics").any isMoment) := by
  cases i with
  | list span kind items =>
    have each : ProjectEntry.accepts isBindings = _ := funext ProjectEntry.accepts_isBindings
    rw [each]
    exact all_and_not
  | _ => rfl

theorem fits_project (p : Item → Bool) (e : Key × Item) :
    fits [("project", p)] e = (decide (e.1.name = "project") && p e.2) := by
  unfold fits
  by_cases name : e.1.name = "project"
  · simp [name]
  · have other : (e.1.name == "project") = false := by simp [name]
    simp [List.lookup_cons, other, name]

theorem accepts_isBindings (i : Item) : accepts isBindings i =
    (accepts isBindingsOrMoment i && !bindsMoment i) := by
  cases i with
  | table span kind entries =>
    have fit : fits [("project", isListOf (ProjectEntry.accepts isBindings))] = fun e =>
        fits [("project", isListOf (ProjectEntry.accepts isBindingsOrMoment))] e &&
          !(decide (e.1.name = "project") &&
            e.2.elements.any fun p => (p.given "generics").any isMoment) := by
      funext e
      rw [fits_project, fits_project, isListOf_isBindings]
      cases decide (e.1.name = "project") <;> simp
    simp only [accepts, isRecord, fit, all_and_not, bindsMoment, described, List.any_flatMap,
      any_given, List.all_nil, Bool.and_true]
  | _ => rfl

/-- A document with no key but `project` has it at most once. -/
theorem entries_of_fits {entries : List (Key × Item)} {p : Item → Bool}
    (distinct : (entries.map (·.1.name)).Nodup)
    (fit : entries.all (fits [("project", p)]) = true) :
    entries = [] ∨ ∃ e, entries = [e] ∧ e.1.name = "project" ∧ p e.2 = true := by
  have each : ∀ e ∈ entries, e.1.name = "project" ∧ p e.2 = true := by
    intro e he
    simpa [fits_project] using List.all_eq_true.mp fit e he
  cases entries with
  | nil => exact .inl rfl
  | cons e rest =>
    obtain ⟨here, there⟩ := List.forall_mem_cons.mp each
    cases rest with
    | nil => exact .inr ⟨e, rfl, here⟩
    | cons e' rest =>
      have apart := (List.nodup_cons.mp distinct).1
      exact absurd (here.1.trans (there e' (by simp)).1.symm) fun same => apart (by simp [same])

/-- The projects of a configuration are read from what describes them, in order. -/
theorem read_described {i : Item} {c : Config} (proper : i.Proper) (table : i.isTable = true)
    (reading : ofItem i = .ok c) :
    List.Forall₂ (fun p q => ProjectEntry.ofItem p = .ok q) (described i) c.projects := by
  cases i with
  | table span kind entries =>
    obtain ⟨distinct, -⟩ := Item.proper_table_iff.mp proper
    obtain ⟨fit, finished⟩ := (slots (reads_self ProjectEntry.ofItem)).decode_eq_ok_iff.mp reading
    cases finished
    obtain rfl | ⟨e, rfl, name, lists⟩ := entries_of_fits distinct fit
    · exact .nil
    · obtain ⟨ps, each⟩ := ((reads_self ProjectEntry.ofItem).asList e.2).mpr lists
      have known : toldAll untold [e] "project" = some e.2 :=
        (toldAll_eq_some_iff distinct).mpr ⟨e, by simp, name, rfl⟩
      have projects : filled (toldAll untold [e]) = ps := by
        simp [filled, valueOf, known, each, Except.toOption]
      have described : described (.table span kind [e]) = e.2.elements := by
        simp [described, given, name]
      rw [described, projects]
      exact forall₂_of_asList each
  | _ => cases table

theorem exists_ofItem_iff {i : Item} (table : i.isTable = true) (arrays : shaped i = true) :
    (∃ c, ofItem i = .ok c) ↔ accepts isBindingsOrMoment i = true := by
  cases i with
  | table span kind entries =>
    refine (slots (reads_self ProjectEntry.ofItem)).exists_decode_iff.trans ?_
    have same : ∀ e ∈ entries,
        fits [("project", isListOf fun i => (ProjectEntry.ofItem i).toBool)] e =
          fits [("project", isListOf (ProjectEntry.accepts isBindingsOrMoment))] e := by
      intro e he
      rw [fits_project, fits_project]
      by_cases name : e.1.name = "project"
      · have lists := List.all_eq_true.mp arrays e.2 (mem_given.mpr ⟨e, he, name, rfl⟩)
        rw [Item.isListOf_congr lists fun p shape => ?_]
        obtain ⟨table, constraints⟩ := Bool.and_eq_true_iff.mp shape
        rw [Bool.eq_iff_iff, ← reads_self ProjectEntry.ofItem p,
          ProjectEntry.exists_ofItem_iff table constraints]
      · simp [name]
    rw [accepts, Item.isRecord_congr same]
  | _ => cases table

theorem ofText_eq_ok_iff {source : String} {t : Table} {c : Config}
    (parsed : Table.ofText? source = some t) : ofText source = .ok c ↔ ofItem t.item = .ok c := by
  unfold ofText decodeText
  rw [parsed]
  cases outcome : ofItem t.item <;> simp [outcome]

/-- What a text is read as, if `i` is its document. -/
structure Decodes (source : String) (i : Item) : Prop where
  /-- It is a configuration exactly if the document describes one, with a date as good as a table
  where a project has its generics. -/
  decodes : (∃ c, ofText source = .ok c) ↔ accepts isBindingsOrMoment i = true
  /-- It describes one with generics as they should be exactly if it is one and has no such date. -/
  undated : accepts isBindings i = true ↔ (∃ c, ofText source = .ok c) ∧ bindsMoment i = false
  /-- The keys of projects and constraints may come in any order. -/
  reordered : ∀ c j, ofText source = .ok c → Reordered i j → ofItem j = .ok c
  /-- Generics keep the order in which their keys are written, and are listed in it. -/
  followed : ∀ c, ofText source = .ok c → List.Forall₂ (fun p q =>
    ∀ span kind entries, Item.table span kind entries ∈ p.given "generics" →
      q.generics.Follows entries) (described i) c.projects

/-- Which texts are configurations, for all documents in which projects and constraints are arrays
of tables: those with the key `project` only, whose projects have declared keys only, each with an
item of its type, and both a name and a part. The one exception is a date in place of generics. -/
theorem documents_decode {source : String} {t : Table} (parsed : Table.ofText? source = some t)
    (arrays : shaped t.item = true) : Decodes source t.item := by
  have proper : t.item.Proper := Table.proper_of_ofText? parsed
  have read (c : Config) := ofText_eq_ok_iff (c := c) parsed
  have decodes : (∃ c, ofText source = .ok c) ↔ accepts isBindingsOrMoment t.item = true := by
    simp only [read, exists_ofItem_iff rfl arrays]
  refine ⟨decodes, ?_, fun c j ok related => ?_, fun c ok => ?_⟩
  · rw [decodes, accepts_isBindings, Bool.and_eq_true, Bool.not_eq_true']
  · exact respects_ofItem t.item j c proper related ((read c).mp ok)
  · have each := read_described proper rfl ((read c).mp ok)
    refine ((List.forall₂_and_left _ _).mpr ⟨fun p => proper_of_described proper, each⟩).imp
      fun p q read => ?_
    exact fun span kind entries given => ProjectEntry.follows_of_ofItem read.1 read.2 given

/-- A project with generics and a constraint, the keys in no particular order. -/
def sampleText : String :=
  "[[project]]\npart = \"p\"\nname = \"a\"\ngenerics = \x7b w = 8, b = true \x7d\n" ++
    "[[project.constraint]]\nused-in = \"impl\"\nfile = \"x.tcl\"\n"

theorem sampleText_decodes : ∃ t c, Table.ofText? sampleText = some t ∧ shaped t.item = true ∧
    ofText sampleText = .ok c ∧ Decodes sampleText t.item := by
  have read : (Table.ofText? sampleText).any (fun t => shaped t.item && (ofItem t.item).toBool) =
      true := by decide +kernel
  obtain ⟨t, parsed, passes⟩ := (Option.any_eq_true _ _).mp read
  obtain ⟨arrays, ok⟩ := Bool.and_eq_true_iff.mp passes
  obtain ⟨c, ok⟩ := (reads_self ofItem t.item).mpr ok
  exact ⟨t, c, parsed, arrays, (ofText_eq_ok_iff parsed).mpr ok, documents_decode parsed arrays⟩

/-- A project with a date in place of its generics. -/
def datedText : String :=
  "[[project]]\nname = \"a\"\npart = \"p\"\ngenerics = 1979-05-27\n"

/-- The date is taken for generics: the text is read although it describes no configuration. -/
theorem datedText_decodes : ∃ t c, Table.ofText? datedText = some t ∧ shaped t.item = true ∧
    accepts isBindings t.item = false ∧ ofText datedText = .ok c := by
  have read : (Table.ofText? datedText).any (fun t => shaped t.item &&
      !accepts isBindings t.item && (ofItem t.item).toBool) = true := by decide +kernel
  obtain ⟨t, parsed, passes⟩ := (Option.any_eq_true _ _).mp read
  simp only [Bool.and_eq_true, Bool.not_eq_true'] at passes
  obtain ⟨⟨arrays, refused⟩, ok⟩ := passes
  obtain ⟨c, ok⟩ := (reads_self ofItem t.item).mpr ok
  exact ⟨t, c, parsed, arrays, refused, (ofText_eq_ok_iff parsed).mpr ok⟩

end Config

end FpgaProject
