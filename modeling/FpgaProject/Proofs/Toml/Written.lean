import FpgaProject.Toml.Decode
import FpgaProject.Proofs.Sequence

/-!
Tables that are written and read again.

A record is written as a table of its fields, in their order and without those that have no value.
Reading it goes from state to state, one key after another: `RecordReader.Fills` says what a stretch
of entries makes of a state, so that a table is read field by field (`Fills.append`) and the record
is what the last state is finished to (`Fills.decode`). Lists and tables with any keys are read back
if each of their items is (`asList_ofList`, `asMap_ofEntries`).
-/

namespace FpgaProject.Toml

variable {α σ : Type}

/-! ### Items that a document can hold -/

/-- No table in an item has a key twice. -/
inductive Item.Proper : Item → Prop where
  | scalar (span : Option Span) (value : Scalar) : Proper (.scalar span value)
  | list (span : Option Span) (kind : ListKind) {items : List Item} :
      (∀ i ∈ items, Proper i) → Proper (.list span kind items)
  | table (span : Option Span) (kind : TableKind) {entries : List (Key × Item)} :
      (entries.map (·.1.name)).Nodup → (∀ e ∈ entries, Proper e.2) →
      Proper (.table span kind entries)

theorem Item.proper_ofString (s : String) : (ofString s).Proper :=
  .scalar _ _

theorem Item.proper_ofList {write : α → Item} (each : ∀ a, (write a).Proper) (as : List α) :
    (ofList (as.map write)).Proper := by
  refine .list _ _ fun i hi => ?_
  obtain ⟨a, -, rfl⟩ := List.mem_map.mp hi
  exact each a

/-- Entries with proper items whose keys are some of these fields, in their order. -/
def Lists (fields : List String) (entries : List (String × Item)) : Prop :=
  (entries.map Prod.fst).Sublist fields ∧ ∀ e ∈ entries, e.2.Proper

theorem Lists.append {fields fields' : List String} {first second : List (String × Item)}
    (h : Lists fields first) (h' : Lists fields' second) :
    Lists (fields ++ fields') (first ++ second) := by
  refine ⟨?_, fun e he => ?_⟩
  · rw [List.map_append]
    exact h.1.append h'.1
  · rcases List.mem_append.mp he with he | he
    · exact h.2 e he
    · exact h'.2 e he

theorem Lists.field (name : String) {i : Item} (proper : i.Proper) : Lists [name] [(name, i)] :=
  ⟨List.Sublist.refl _, by simpa using proper⟩

theorem Lists.optional {β : Type} (name : String) {write : β → Item} (value : Option β)
    (proper : ∀ b, (write b).Proper) :
    Lists [name] (value.toList.map fun b => (name, write b)) := by
  cases value with
  | none => exact ⟨List.nil_sublist _, by simp⟩
  | some b => exact .field name (proper b)

/-- A table of fields is proper if no two fields have the same name. -/
theorem Lists.proper {fields : List String} {entries : List (String × Item)}
    (h : Lists fields entries) (distinct : fields.Nodup) : (Item.ofEntries entries).Proper := by
  refine .table _ _ ?_ fun e he => ?_
  · simpa [List.map_map, Function.comp_def] using distinct.sublist h.1
  · obtain ⟨named, member, rfl⟩ := List.mem_map.mp he
    exact h.2 named member

/-! ### Lists and tables with any keys -/

theorem mapM_map_eq_ok {β ε : Type} {write : α → β} {read : β → Except ε α} {as : List α}
    (each : ∀ a ∈ as, read (write a) = .ok a) : (as.map write).mapM read = .ok as := by
  rw [mapM_eq_ok_iff, List.forall₂_map_left_iff, List.forall₂_same]
  exact each

/-- A list is read back if each of its items is. -/
theorem asList_ofList {write : α → Item} {read : Item → Except Misfit α} {as : List α}
    (each : ∀ a ∈ as, read (write a) = .ok a) :
    (Item.ofList (as.map write)).asList read = .ok as := by
  rw [Item.ofList, Item.asList, mapM_map_eq_ok each]
  rfl

/-- A table with any keys is read back if each of its items is. -/
theorem asMap_ofEntries {write : α → Item} {read : Item → Except Misfit α}
    (each : ∀ a, read (write a) = .ok a) (bs : List (String × α)) :
    (Item.ofEntries (bs.map fun b => (b.1, write b.2))).asMap read = .ok bs := by
  have entries : (Item.ofEntries (bs.map fun b => (b.1, write b.2))).entries? =
      some (bs.map fun b => (⟨b.1, none⟩, write b.2)) := by
    simp [Item.ofEntries, Item.entries?, List.map_map, Function.comp_def]
  rw [Item.asMap, entries]
  simp only
  rw [mapM_map_eq_ok (fun b _ => by simp [each, Except.map, within])]
  rfl

/-! ### Records -/

namespace RecordReader

variable {r : RecordReader σ α} {s s' s'' : σ}

/-- What reading a stretch of entries that come from no source makes of a state. -/
def Fills (r : RecordReader σ α) (s : σ) (entries : List (String × Item)) (s' : σ) : Prop :=
  (entries.map fun e => ((⟨e.1, none⟩ : Key), e.2)).foldlM r.readEntry s = .ok s'

/-- A stretch of entries and what follows it are read one after the other. -/
theorem Fills.append {first second : List (String × Item)} (reads : r.Fills s first s')
    (then_ : r.Fills s' second s'') : r.Fills s (first ++ second) s'' := by
  unfold Fills at reads then_ ⊢
  rw [List.map_append, List.foldlM_append, reads]
  exact then_

/-- A field with a value. -/
theorem Fills.field {name : String} {i : Item} (known : name ∈ r.fields)
    (read : r.read s name i = .ok s') : r.Fills s [(name, i)] s' := by
  simp [Fills, readEntry, known, read, within, bind, Except.bind, pure, Except.pure]

/-- A field that may have no value. -/
theorem Fills.optional {β : Type} {name : String} {write : β → Item} {value : Option β}
    (absent : value = none → s' = s) (known : name ∈ r.fields)
    (read : ∀ b, value = some b → r.read s name (write b) = .ok s') :
    r.Fills s (value.toList.map fun b => (name, write b)) s' := by
  cases value with
  | none => simp [Fills, absent rfl, pure, Except.pure]
  | some b => exact .field known (read b rfl)

/-- A table that fills the first state is read as what the last state is finished to. -/
theorem Fills.decode {entries : List (String × Item)} {a : α} (reads : r.Fills r.start entries s)
    (finished : r.finish s = .ok a) : r.decode (.ofEntries entries) = .ok a := by
  unfold Fills at reads
  simp only [RecordReader.decode, Item.ofEntries, Item.entries?, reads, bind, Except.bind, finished,
    within]

end RecordReader

end FpgaProject.Toml
