import Mathlib.Data.List.Induction
import FpgaProject.Config
import FpgaProject.Proofs.Toml.Written

/-!
Descriptions written as tables and read again.

Generic values, generics, constraints, configurations of test benches, entries and whole
configurations are each read back from the table that they are written as: the reading goes field by
field, and the fields without a value leave the state as it is. Main statement:
`descriptions_read_back`.
-/

namespace FpgaProject

open Toml

/-! ### Generics -/

theorem GenericValue.ofItem_toItem (v : GenericValue) : ofItem v.toItem = .ok v := by
  cases v <;> rfl

theorem GenericValue.proper_toItem (v : GenericValue) : v.toItem.Proper := by
  cases v <;> exact .scalar _ _

namespace Generics

theorem bindings_set_of_notMem {g : Generics} {name : String} (new : name ∉ g.names)
    (value : GenericValue) : (g.set name value).bindings = g.bindings ++ [(name, value)] := by
  have free : name ∉ g.bindings.map Prod.fst := new
  rw [set, dif_neg free]

/-- Binding different names one after another keeps them as they come. -/
theorem bindings_ofList {bs : List (String × GenericValue)} (distinct : (bs.map Prod.fst).Nodup) :
    (ofList bs).bindings = bs := by
  induction bs using List.reverseRecOn with
  | nil => rfl
  | append_singleton bs b ih =>
    rw [List.map_append, List.nodup_append] at distinct
    obtain ⟨before, -, apart⟩ := distinct
    have bound : (ofList bs).bindings = bs := ih before
    have new : b.1 ∉ (ofList bs).names := by
      rw [names, bound]
      exact fun member => apart _ member _ (by simp) rfl
    have last : ofList (bs ++ [b]) = (ofList bs).set b.1 b.2 := by simp [ofList]
    rw [last, bindings_set_of_notMem new, bound]

theorem ofList_bindings (g : Generics) : ofList g.bindings = g := by
  have same := bindings_ofList g.distinct
  generalize ofList g.bindings = h at same ⊢
  cases g
  cases h
  subst same
  rfl

theorem ofItem_toItem (g : Generics) : ofItem g.toItem = .ok g := by
  rw [ofItem, toItem, asMap_ofEntries GenericValue.ofItem_toItem]
  simp [Except.map, ofList_bindings]

theorem proper_toItem (g : Generics) : g.toItem.Proper := by
  have listed : Lists g.names (g.bindings.map fun b => (b.1, b.2.toItem)) := by
    refine ⟨?_, fun e he => ?_⟩
    · simp [names, List.map_map, Function.comp_def]
    · obtain ⟨b, -, rfl⟩ := List.mem_map.mp he
      exact b.2.proper_toItem
  exact listed.proper g.distinct

end Generics

/-! ### Constraints and test benches -/

namespace Constraint

theorem ofItem_toItem (c : Constraint) : ofItem c.toItem = .ok c := by
  have file : reader.Fills reader.start [("file", .ofString c.file.text)]
      { file := some c.file } := .field (by decide) rfl
  have reference : reader.Fills { file := some c.file }
      (c.reference.toList.map fun r => ("ref", .ofString r))
      { file := some c.file, reference := c.reference } :=
    .optional (fun none => by rw [none]) (by decide) fun r some => by rw [some]; rfl
  have usage : reader.Fills { file := some c.file, reference := c.reference }
      [("used-in", .ofString c.usage.word)]
      { file := some c.file, reference := c.reference, usage := c.usage } := by
    refine .field (by decide) ?_
    cases c.usage <;> rfl
  exact ((file.append reference).append usage).decode rfl

theorem proper_toItem (c : Constraint) : c.toItem.Proper := by
  have file := Lists.field "file" (Item.proper_ofString c.file.text)
  have reference := Lists.optional "ref" c.reference Item.proper_ofString
  have usage := Lists.field "used-in" (Item.proper_ofString c.usage.word)
  exact ((file.append reference).append usage).proper (by decide)

end Constraint

namespace BenchConfig

theorem ofItem_toItem (b : BenchConfig) : ofItem b.toItem = .ok b := by
  have name : reader.Fills reader.start [("name", .ofString b.name)]
      { name := some b.name } := .field (by decide) rfl
  have config : reader.Fills { name := some b.name } [("config", .ofString b.config)]
      { name := some b.name, config := some b.config } := .field (by decide) rfl
  have generics : reader.Fills { name := some b.name, config := some b.config }
      [("generics", b.generics.toItem)]
      { name := some b.name, config := some b.config, generics := b.generics } := by
    refine .field (by decide) ?_
    simp [reader, b.generics.ofItem_toItem, bind, Except.bind]
  exact ((name.append config).append generics).decode rfl

theorem proper_toItem (b : BenchConfig) : b.toItem.Proper := by
  have name := Lists.field "name" (Item.proper_ofString b.name)
  have config := Lists.field "config" (Item.proper_ofString b.config)
  have generics := Lists.field "generics" b.generics.proper_toItem
  exact ((name.append config).append generics).proper (by decide)

end BenchConfig

/-! ### Configurations -/

namespace ProjectEntry

theorem pathOfItem_ofString (p : Path) : pathOfItem (.ofString p.text) = .ok p := rfl

theorem asList_paths (ps : List Path) :
    (Item.ofList (ps.map fun p => .ofString p.text)).asList pathOfItem = .ok ps :=
  asList_ofList fun p _ => pathOfItem_ofString p

theorem asList_strings (ss : List String) :
    (Item.ofList (ss.map .ofString)).asList stringOfItem = .ok ss :=
  asList_ofList fun _ _ => rfl

theorem asList_constraints (cs : List Constraint) :
    (Item.ofList (cs.map Constraint.toItem)).asList Constraint.ofItem = .ok cs :=
  asList_ofList fun c _ => c.ofItem_toItem

/-- A field that may have no value, in a state in which it has none. -/
theorem fills_optional {β : Type} {s : Fields} {name : String} {write : β → Item}
    (entry : Option β → ProjectEntry) (value : Option β) (unread : entry none = s.entry)
    (known : name ∈ reader.fields)
    (read : ∀ b, reader.read s name (write b) = .ok { s with entry := entry (some b) }) :
    reader.Fills s (value.toList.map fun b => (name, write b)) { s with entry := entry value } :=
  .optional (fun none => by rw [none, unread]) known fun b some => by rw [some, read b]

/-- Fields of other kinds than texts and paths. -/
theorem fills_listed (s : Fields) (p : ProjectEntry) :
    reader.Fills s
      [("library-suffix", .ofScalar (.boolean p.librarySuffix)),
        ("generics", p.generics.toItem),
        ("constraint", .ofList (p.constraints.map Constraint.toItem))]
      { s with entry := { s.entry with
        librarySuffix := p.librarySuffix
        generics := p.generics
        constraints := p.constraints } } := by
  have librarySuffix : reader.Fills s [("library-suffix", .ofScalar (.boolean p.librarySuffix))]
      { s with entry.librarySuffix := p.librarySuffix } := .field (by decide) rfl
  have generics (s : Fields) : reader.Fills s [("generics", p.generics.toItem)]
      { s with entry.generics := p.generics } := by
    refine .field (by decide) ?_
    simp [reader, p.generics.ofItem_toItem, bind, Except.bind]
  have constraints (s : Fields) : reader.Fills s
      [("constraint", .ofList (p.constraints.map Constraint.toItem))]
      { s with entry.constraints := p.constraints } := by
    refine .field (by decide) ?_
    simp [reader, asList_constraints, bind, Except.bind]
  exact (librarySuffix.append (generics _)).append (constraints _)

theorem ofItem_toItem (p : ProjectEntry) : ofItem p.toItem = .ok p := by
  have name : reader.Fills reader.start [("name", .ofString p.name)]
      { name := some p.name } := .field (by decide) rfl
  have part (s : Fields) : reader.Fills s [("part", .ofString p.part)]
      { s with part := some p.part } := .field (by decide) rfl
  have top (s : Fields) (unread : s.entry.top = none) :
      reader.Fills s (p.top.toList.map fun t => ("top", .ofString t))
        { s with entry.top := p.top } :=
    fills_optional (fun o => { s.entry with top := o }) p.top (by rw [← unread]) (by decide)
      fun _ => rfl
  have blockDesign (s : Fields) (unread : s.entry.blockDesign = none) :
      reader.Fills s (p.blockDesign.toList.map fun q => ("block-design", .ofString q.text))
        { s with entry.blockDesign := p.blockDesign } :=
    fills_optional (fun o => { s.entry with blockDesign := o }) p.blockDesign
      (by rw [← unread]) (by decide) fun _ => rfl
  have tool (s : Fields) (unread : s.entry.tool = none) :
      reader.Fills s (p.tool.toList.map fun t => ("vivado", .ofString t))
        { s with entry.tool := p.tool } :=
    fills_optional (fun o => { s.entry with tool := o }) p.tool (by rw [← unread]) (by decide)
      fun _ => rfl
  have modules (s : Fields) :
      reader.Fills s [("modules", .ofList (p.modules.map fun q => .ofString q.text))]
        { s with entry.modules := p.modules } := by
    refine .field (by decide) ?_
    simp [reader, asList_paths, bind, Except.bind]
  have names (s : Fields) (unread : s.entry.names = none) :
      reader.Fills s (p.names.toList.map fun ns => ("names", .ofList (ns.map .ofString)))
        { s with entry.names := p.names } :=
    fills_optional (fun o => { s.entry with names := o }) p.names (by rw [← unread]) (by decide)
      fun ns => by simp [reader, asList_strings, bind, Except.bind]
  have clockCrossings (s : Fields) (unread : s.entry.clockCrossings = none) :
      reader.Fills s (p.clockCrossings.toList.map fun q => ("clock-crossings", .ofString q.text))
        { s with entry.clockCrossings := p.clockCrossings } :=
    fills_optional (fun o => { s.entry with clockCrossings := o }) p.clockCrossings
      (by rw [← unread]) (by decide) fun _ => rfl
  have texts := (((name.append (part _)).append (top _ rfl)).append (blockDesign _ rfl)).append
    (tool _ rfl)
  have selected := (texts.append (modules _)).append (names _ rfl)
  exact ((selected.append (fills_listed _ p)).append (clockCrossings _ rfl)).decode rfl

theorem proper_toItem (p : ProjectEntry) : p.toItem.Proper := by
  have path (q : Path) : (Item.ofString q.text).Proper := Item.proper_ofString q.text
  have name := Lists.field "name" (Item.proper_ofString p.name)
  have part := Lists.field "part" (Item.proper_ofString p.part)
  have top := Lists.optional "top" p.top Item.proper_ofString
  have blockDesign := Lists.optional "block-design" p.blockDesign path
  have tool := Lists.optional "vivado" p.tool Item.proper_ofString
  have modules := Lists.field "modules" (Item.proper_ofList path p.modules)
  have names := Lists.optional "names" p.names (Item.proper_ofList Item.proper_ofString)
  have librarySuffix := Lists.field "library-suffix" (.scalar none (.boolean p.librarySuffix))
  have generics := Lists.field "generics" p.generics.proper_toItem
  have constraints := Lists.field "constraint"
    (Item.proper_ofList Constraint.proper_toItem p.constraints)
  have clockCrossings := Lists.optional "clock-crossings" p.clockCrossings path
  have texts := (((name.append part).append top).append blockDesign).append tool
  have selected := (texts.append modules).append names
  have others := (librarySuffix.append generics).append constraints
  exact ((selected.append others).append clockCrossings).proper (by decide)

end ProjectEntry

namespace Config

theorem ofItem_toItem (c : Config) : ofItem c.toItem = .ok c := by
  have projects : reader.Fills reader.start
      [("project", .ofList (c.projects.map ProjectEntry.toItem))] c.projects :=
    .field (by decide) (asList_ofList fun p _ => p.ofItem_toItem)
  exact projects.decode rfl

theorem proper_toItem (c : Config) : c.toItem.Proper := by
  have projects := Lists.field "project" (Item.proper_ofList ProjectEntry.proper_toItem c.projects)
  exact projects.proper (by decide)

end Config

/-! ### All descriptions -/

/-- What is written is an item that a document can hold, and it is read as the value that was
written; so writing a value that was read from a document and reading it again changes nothing. -/
structure ReadsBack {α : Type} (write : α → Item) (read : Item → Except Misfit α) : Prop where
  proper : ∀ a, (write a).Proper
  reread : ∀ a, read (write a) = .ok a
  rewritten : ∀ source a, decodeText read source = .ok a → read (write a) = .ok a

theorem ReadsBack.of_reread {α : Type} {write : α → Item} {read : Item → Except Misfit α}
    (proper : ∀ a, (write a).Proper) (reread : ∀ a, read (write a) = .ok a) :
    ReadsBack write read :=
  ⟨proper, reread, fun _ a _ => reread a⟩

/-- Configurations, constraints, generics and configurations of test benches are read back from the
tables that they are written as: all fields, those that have no value, and the order of what is in a
list or bound to a name. -/
theorem descriptions_read_back :
    ReadsBack Config.toItem Config.ofItem ∧
    ReadsBack Constraint.toItem Constraint.ofItem ∧
    ReadsBack Generics.toItem Generics.ofItem ∧
    ReadsBack BenchConfig.toItem BenchConfig.ofItem :=
  ⟨.of_reread Config.proper_toItem Config.ofItem_toItem,
    .of_reread Constraint.proper_toItem Constraint.ofItem_toItem,
    .of_reread Generics.proper_toItem Generics.ofItem_toItem,
    .of_reread BenchConfig.proper_toItem BenchConfig.ofItem_toItem⟩

end FpgaProject
