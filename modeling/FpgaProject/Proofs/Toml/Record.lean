import Mathlib.Data.List.Induction
import FpgaProject.Proofs.Sequence
import FpgaProject.Proofs.Toml.Parsed

/-!
What can be read as a value, and what the order of keys does to it.

`Reads read p` says that a test `p` decides whether something can be read. For a record, `Slots`
says what its fields are, which items fit each of them, and that the state after some keys depends
only on what they say about each name; so a table can be read exactly if all its keys are declared
and fit and those that are required are there (`Slots.exists_decode_iff`). `Respects R read` says
that what can be read gives the same value as everything in the relation `R` to it. A record respects
that its keys come in another order, if each field respects what happens to its item
(`Slots.respects`).
-/

namespace FpgaProject.Toml

variable {α β σ ε : Type}

theorem bind_eq_ok_iff {x : Except ε α} {f : α → Except ε β} {b : β} :
    (x >>= f) = .ok b ↔ ∃ a, x = .ok a ∧ f a = .ok b := by
  cases x <;> simp [bind, Except.bind]

theorem map_eq_ok_iff {x : Except ε α} {f : α → β} {b : β} :
    x.map f = .ok b ↔ ∃ a, x = .ok a ∧ f a = b := by
  cases x <;> simp [Except.map]

theorem exists_map_eq_ok_iff {x : Except ε α} {f : α → β} :
    (∃ b, x.map f = .ok b) ↔ ∃ a, x = .ok a := by
  cases x <;> simp [Except.map]

theorem within_eq_ok_iff {span : Option Span} {x : Except Misfit α} {a : α} :
    within span x = .ok a ↔ x = .ok a := by
  cases x <;> simp [within]

theorem all_and_not {xs : List α} {f g : α → Bool} :
    (xs.all fun x => f x && !g x) = (xs.all f && !xs.any g) := by
  rw [List.not_any_eq_all_not]
  induction xs with
  | nil => rfl
  | cons x xs ih =>
    rw [List.all_cons, List.all_cons, List.all_cons, ih]
    cases f x <;> cases g x <;> simp

/-! ### Tests -/

namespace Item

def isText : Item → Bool
  | .scalar _ (.string _) => true
  | _ => false

/-- Whether the item is a truth value. -/
def isFlag : Item → Bool
  | .scalar _ (.boolean _) => true
  | _ => false

/-- Whether the item is a date or a time. -/
def isMoment : Item → Bool
  | .scalar _ (.moment _) => true
  | _ => false

def isTable : Item → Bool
  | .table .. => true
  | _ => false

def isListOf (p : Item → Bool) : Item → Bool
  | .list _ _ items => items.all p
  | _ => false

/-- Whether the item can be seen as a table, with such items behind its keys. -/
def isMapOf (p : Item → Bool) (i : Item) : Bool :=
  match i.entries? with
  | some entries => entries.all fun e => p e.2
  | none => false

end Item

/-- Whether an entry is declared and its item passes the test that is declared for it. -/
def fits (declared : List (String × (Item → Bool))) (e : Key × Item) : Bool :=
  match declared.lookup e.1.name with
  | some p => p e.2
  | none => false

/-- Whether an item is a table with declared keys only, each with an item that fits, in which the
required ones are there. -/
def Item.isRecord (declared : List (String × (Item → Bool))) (required : List String) : Item → Bool
  | .table _ _ entries => entries.all (fits declared) &&
      required.all fun name => entries.any (·.1.name = name)
  | _ => false

theorem Item.isListOf_congr {p q r : Item → Bool} {i : Item} (lists : isListOf r i = true)
    (same : ∀ j, r j = true → p j = q j) : isListOf p i = isListOf q i := by
  cases i with
  | list span kind items =>
    have each := List.all_eq_true.mp lists
    rw [Bool.eq_iff_iff, isListOf, isListOf, List.all_eq_true, List.all_eq_true]
    exact forall₂_congr fun j hj => by rw [same j (each j hj)]
  | _ => rfl

theorem Item.isRecord_congr {declared declared' : List (String × (Item → Bool))}
    {required : List String} {span : Option Span} {kind : TableKind} {entries : List (Key × Item)}
    (same : ∀ e ∈ entries, fits declared e = fits declared' e) :
    isRecord declared required (.table span kind entries) =
      isRecord declared' required (.table span kind entries) := by
  have all : entries.all (fits declared) = entries.all (fits declared') := by
    rw [Bool.eq_iff_iff, List.all_eq_true, List.all_eq_true]
    exact forall₂_congr fun e he => by rw [same e he]
  simp only [isRecord, all]

/-- The test decides what can be read. -/
def Reads (read : Item → Except Misfit α) (p : Item → Bool) : Prop :=
  ∀ i, (∃ a, read i = .ok a) ↔ p i = true

theorem reads_self (read : Item → Except Misfit α) : Reads read fun i => (read i).toBool := by
  intro i
  cases outcome : read i <;> simp [outcome, Except.toBool]

theorem reads_asString (expected : String) : Reads (Item.asString expected) Item.isText := by
  intro i
  rcases i with ⟨_, _ | _ | _ | _ | _⟩ | _ | _ <;> simp [Item.asString, Item.isText]

theorem reads_asBoolean : Reads Item.asBoolean Item.isFlag := by
  intro i
  rcases i with ⟨_, _ | _ | _ | _ | _⟩ | _ | _ <;> simp [Item.asBoolean, Item.isFlag]

theorem Reads.asList {read : Item → Except Misfit α} {p : Item → Bool} (h : Reads read p) :
    Reads (Item.asList read) (Item.isListOf p) := by
  intro i
  cases i with
  | list span kind items =>
    simp only [Item.asList, Item.isListOf, within_eq_ok_iff, exists_mapM_eq_ok_iff, h _,
      List.all_eq_true]
  | scalar => simp [Item.asList, Item.isListOf]
  | table => simp [Item.asList, Item.isListOf]

theorem Reads.asMap {read : Item → Except Misfit α} {p : Item → Bool} (h : Reads read p) :
    Reads (Item.asMap read) (Item.isMapOf p) := by
  intro i
  unfold Item.asMap Item.isMapOf
  cases i.entries? with
  | none => simp
  | some entries =>
    simp only [within_eq_ok_iff, exists_mapM_eq_ok_iff, exists_map_eq_ok_iff, h _,
      List.all_eq_true]

/-! ### Parts of items -/

namespace Item

/-- What stands behind a key of a table. -/
def given (name : String) : Item → List Item
  | .table _ _ entries => (entries.filter (·.1.name = name)).map (·.2)
  | _ => []

theorem mem_given {name : String} {span : Option Span} {kind : TableKind}
    {entries : List (Key × Item)} {j : Item} :
    j ∈ (Item.table span kind entries).given name ↔ ∃ e ∈ entries, e.1.name = name ∧ e.2 = j := by
  simp [given, and_assoc]

theorem any_given {name : String} {p : Item → Bool} {span : Option Span} {kind : TableKind}
    {entries : List (Key × Item)} : ((Item.table span kind entries).given name).any p =
      entries.any fun e => decide (e.1.name = name) && p e.2 := by
  simp [given, List.any_map, List.any_filter, Function.comp_def]

def elements : Item → List Item
  | .list _ _ items => items
  | _ => []

theorem forall₂_of_asList {α : Type} {read : Item → Except Misfit α} {i : Item} {as : List α}
    (reading : i.asList read = .ok as) :
    List.Forall₂ (fun j a => read j = .ok a) i.elements as := by
  cases i with
  | list span kind items =>
    rw [asList, within_eq_ok_iff, mapM_eq_ok_iff] at reading
    exact reading
  | _ => cases reading

theorem Proper.of_given {name : String} {i j : Item} (proper : i.Proper) (h : j ∈ i.given name) :
    j.Proper := by
  cases i with
  | table span kind entries =>
    obtain ⟨e, he, -, rfl⟩ := mem_given.mp h
    exact (proper_table_iff.mp proper).2 e he
  | _ => cases h

theorem Proper.of_elements {i j : Item} (proper : i.Proper) (h : j ∈ i.elements) : j.Proper := by
  cases i with
  | list span kind items => exact proper_list_iff.mp proper j h
  | _ => cases h

end Item

/-! ### What entries say about names -/

/-- What is known of names after one more entry. -/
def told (look : String → Option Item) (name : String) (i : Item) : String → Option Item :=
  fun n => if n = name then some i else look n

/-- What is known of names after more entries. -/
def toldAll (look : String → Option Item) (entries : List (Key × Item)) :
    String → Option Item :=
  entries.foldl (fun look e => told look e.1.name e.2) look

/-- Nothing is known of any name. -/
def untold : String → Option Item :=
  fun _ => none

variable {look : String → Option Item} {entries entries' : List (Key × Item)} {name : String}
  {i : Item}

theorem toldAll_concat (e : Key × Item) :
    toldAll look (entries ++ [e]) = told (toldAll look entries) e.1.name e.2 := by
  simp [toldAll]

theorem isSome_toldAll : (toldAll untold entries name).isSome = entries.any (·.1.name = name) := by
  induction entries using List.reverseRecOn with
  | nil => rfl
  | append_singleton entries e ih =>
    rw [toldAll_concat, List.any_append, ← ih, told]
    by_cases same : name = e.1.name
    · simp [same]
    · simp [same, Ne.symm same]

theorem exists_of_toldAll (h : toldAll untold entries name = some i) :
    ∃ e ∈ entries, e.1.name = name ∧ e.2 = i := by
  induction entries using List.reverseRecOn with
  | nil => cases h
  | append_singleton entries e ih =>
    rw [toldAll_concat, told] at h
    split at h
    · next same => exact ⟨e, by simp, same.symm, Option.some.inj h⟩
    · obtain ⟨e', member, found⟩ := ih h
      exact ⟨e', by simp [member], found⟩

/-- If no key comes twice, what is said about a name is what its entry says. -/
theorem toldAll_eq_some_iff (distinct : (entries.map (·.1.name)).Nodup) :
    toldAll untold entries name = some i ↔ ∃ e ∈ entries, e.1.name = name ∧ e.2 = i := by
  refine ⟨exists_of_toldAll, ?_⟩
  rintro ⟨e, member, rfl, rfl⟩
  induction entries using List.reverseRecOn with
  | nil => cases member
  | append_singleton entries last ih =>
    rw [List.map_append, List.nodup_append] at distinct
    obtain ⟨before, -, apart⟩ := distinct
    rw [toldAll_concat, told]
    rcases List.mem_append.mp member with member | member
    · have other : e.1.name ≠ last.1.name :=
        apart _ (List.mem_map_of_mem member) _ (by simp)
      rw [if_neg other]
      exact ih before member
    · cases List.mem_singleton.mp member
      rw [if_pos rfl]

/-- The order of entries does not matter if no key comes twice. -/
theorem toldAll_perm (distinct : (entries.map (·.1.name)).Nodup) (perm : entries.Perm entries') :
    toldAll untold entries = toldAll untold entries' := by
  have distinct' : (entries'.map (·.1.name)).Nodup := (perm.map _).nodup_iff.mp distinct
  funext name
  refine Option.ext fun i => ?_
  rw [toldAll_eq_some_iff distinct, toldAll_eq_some_iff distinct']
  simp only [perm.mem_iff]

/-! ### Records -/

/-- What the value of a field is, if it is there and can be read. -/
def valueOf (read : Item → Except Misfit β) (look : String → Option Item) (name : String) :
    Option β :=
  (look name).bind fun i => (read i).toOption

theorem valueOf_told_self {read : Item → Except Misfit β} {b : β} (reading : read i = .ok b) :
    valueOf read (told look name i) name = some b := by
  rw [valueOf, told, if_pos rfl, Option.bind_some, reading]
  rfl

theorem valueOf_told_of_ne {read : Item → Except Misfit β} {other : String} (ne : other ≠ name) :
    valueOf read (told look name i) other = valueOf read look other := by
  rw [valueOf, told, if_neg ne, valueOf]

/-- A field has a value if its key is there with an item that fits. -/
theorem isSome_valueOf {read : Item → Except Misfit β} {p : Item → Bool} (tests : Reads read p)
    (fit : ∀ i, look name = some i → p i = true) :
    (valueOf read look name).isSome = (look name).isSome := by
  unfold valueOf
  cases found : look name with
  | none => rfl
  | some i =>
    obtain ⟨b, reading⟩ := (tests i).mpr (fit i found)
    rw [Option.bind_some, reading]
    rfl

theorem required_eq_ok_iff {o : Option α} {a : α} : required name o = .ok a ↔ o = some a := by
  cases o <;> simp [required]

/-- How a record is read from a table: which fields it declares, which of them are required, and
what has been read, given what is known of each name. -/
structure Slots (r : RecordReader σ α) (declared : List (String × (Item → Bool)))
    (required : List String) (filled : (String → Option Item) → σ) : Prop where
  fields : r.fields = declared.map Prod.fst
  start : filled untold = r.start
  read : ∀ d ∈ declared, ∀ look i s,
    r.read (filled look) d.1 i = .ok s ↔ d.2 i = true ∧ filled (told look d.1 i) = s
  finish : ∀ look, (∀ name p i, declared.lookup name = some p → look name = some i → p i = true) →
    ((∃ a, r.finish (filled look) = .ok a) ↔ ∀ name ∈ required, (look name).isSome = true)

/-- A field whose value is put in its place if it can be read. -/
theorem slot_iff {read : Item → Except Misfit β} {p : Item → Bool} (tests : Reads read p)
    {put : β → σ} {s' : σ} {i : Item} (puts : ∀ b, read i = .ok b → put b = s') (s : σ) :
    (read i >>= fun b => .ok (put b)) = .ok s ↔ p i = true ∧ s' = s := by
  rw [bind_eq_ok_iff, ← tests i]
  constructor
  · rintro ⟨b, reading, same⟩
    exact ⟨⟨b, reading⟩, puts b reading ▸ Except.ok.inj same⟩
  · rintro ⟨⟨b, reading⟩, rfl⟩
    exact ⟨b, reading, by rw [puts b reading]⟩

/-- What is known of a name after entries that all fit passes the test that is declared for it. -/
theorem fitting_of_fits {declared : List (String × (Item → Bool))}
    (fit : entries.all (fits declared) = true) (name : String) (p : Item → Bool) (i : Item)
    (declares : declared.lookup name = some p) (known : toldAll untold entries name = some i) :
    p i = true := by
  obtain ⟨e, member, rfl, rfl⟩ := exists_of_toldAll known
  simpa [fits, declares] using List.all_eq_true.mp fit e member

namespace Slots

variable {r : RecordReader σ α} {declared : List (String × (Item → Bool))}
  {required : List String} {filled : (String → Option Item) → σ} {s : σ} {a : α}

theorem readEntry_eq_ok_iff (h : Slots r declared required filled) (e : Key × Item) :
    r.readEntry (filled look) e = .ok s ↔
      fits declared e = true ∧ filled (told look e.1.name e.2) = s := by
  unfold RecordReader.readEntry fits
  cases found : declared.lookup e.1.name with
  | none =>
    have unknown : e.1.name ∉ r.fields := by
      rw [h.fields]
      intro member
      obtain ⟨d, hd, same⟩ := List.mem_map.mp member
      have apart := List.lookup_eq_none_iff.mp found d hd
      simp [same] at apart
    simp [unknown]
  | some p =>
    obtain ⟨before, after, split, -⟩ := List.lookup_eq_some_iff.mp found
    have member : (e.1.name, p) ∈ declared := by simp [split]
    have known : e.1.name ∈ r.fields := h.fields ▸ List.mem_map_of_mem member
    rw [if_pos known, within_eq_ok_iff]
    exact h.read _ member look e.2 s

/-- Entries are read exactly if each of them fits; the state is then filled from what they say. -/
theorem foldlM_eq_ok_iff (h : Slots r declared required filled) :
    entries.foldlM r.readEntry (filled look) = .ok s ↔
      entries.all (fits declared) = true ∧ filled (toldAll look entries) = s := by
  induction entries generalizing look with
  | nil => simp [toldAll, pure, Except.pure]
  | cons e entries ih =>
    simp only [List.foldlM_cons, bind_eq_ok_iff, h.readEntry_eq_ok_iff, List.all_cons,
      Bool.and_eq_true]
    constructor
    · rintro ⟨_, ⟨fit, rfl⟩, rest⟩
      obtain ⟨others, same⟩ := ih.mp rest
      exact ⟨⟨fit, others⟩, same⟩
    · rintro ⟨⟨fit, others⟩, same⟩
      exact ⟨_, ⟨fit, rfl⟩, ih.mpr ⟨others, same⟩⟩

theorem decode_eq_ok_iff (h : Slots r declared required filled) {span : Option Span}
    {kind : TableKind} : r.decode (.table span kind entries) = .ok a ↔
      entries.all (fits declared) = true ∧
        r.finish (filled (toldAll untold entries)) = .ok a := by
  simp only [RecordReader.decode, Item.entries?, within_eq_ok_iff, bind_eq_ok_iff, ← h.start,
    h.foldlM_eq_ok_iff]
  constructor
  · rintro ⟨_, ⟨fit, rfl⟩, finished⟩
    exact ⟨fit, finished⟩
  · rintro ⟨fit, finished⟩
    exact ⟨_, ⟨fit, rfl⟩, finished⟩

/-- A table is read as a record exactly if all its keys are declared and fit and the required ones
are there. -/
theorem exists_decode_iff (h : Slots r declared required filled) {span : Option Span}
    {kind : TableKind} : (∃ a, r.decode (.table span kind entries) = .ok a) ↔
      Item.isRecord declared required (.table span kind entries) = true := by
  simp only [h.decode_eq_ok_iff, exists_and_left, Item.isRecord, Bool.and_eq_true]
  refine and_congr_right fun fit => ?_
  simp only [h.finish _ (fitting_of_fits fit), isSome_toldAll, List.all_eq_true]

end Slots

/-! ### Items that are the same but for their places -/

namespace Item

/-- Items that differ at most in where they stand and in how their tables and lists came about. -/
inductive Same : Item → Item → Prop where
  | scalar (span span' : Option Span) (value : Scalar) :
      Same (.scalar span value) (.scalar span' value)
  | list (span span' : Option Span) (kind kind' : ListKind) {items items' : List Item} :
      List.Forall₂ Same items items' → Same (.list span kind items) (.list span' kind' items')
  | table (span span' : Option Span) (kind kind' : TableKind)
      {entries entries' : List (Key × Item)} :
      entries.map (·.1.name) = entries'.map (·.1.name) →
      List.Forall₂ Same (entries.map Prod.snd) (entries'.map Prod.snd) →
      Same (.table span kind entries) (.table span' kind' entries')

theorem Same.refl : ∀ i, Same i i
  | .scalar _ _ => .scalar _ _ _
  | .list _ _ items => .list _ _ _ _ (List.forall₂_same.mpr fun i _ => Same.refl i)
  | .table _ _ entries => by
    refine .table _ _ _ _ rfl ?_
    rw [List.forall₂_map_left_iff, List.forall₂_map_right_iff, List.forall₂_same]
    intro e he
    have inside := List.sizeOf_lt_of_mem he
    have behind : sizeOf e.2 < sizeOf e := by
      cases e
      simp only [Prod.mk.sizeOf_spec]
      omega
    exact Same.refl e.2
termination_by i => sizeOf i

/-- Lists of items that are related one by one. -/
inductive Elementwise (R : Item → Item → Prop) : Item → Item → Prop where
  | list (span span' : Option Span) (kind kind' : ListKind) {items items' : List Item} :
      List.Forall₂ R items items' →
      Elementwise R (.list span kind items) (.list span' kind' items')

/-- Tables that have the same keys, in any order, with items that are related as the key asks
for. -/
inductive Reordered (R : String → Item → Item → Prop) : Item → Item → Prop where
  | table (span span' : Option Span) (kind kind' : TableKind)
      {entries sorted entries' : List (Key × Item)} :
      entries.Perm sorted →
      List.Forall₂ (fun e e' => e.1.name = e'.1.name ∧ R e.1.name e.2 e'.2) sorted entries' →
      Reordered R (.table span kind entries) (.table span' kind' entries')

end Item

open Item

/-- What is read from an item is read from all that are related to it. -/
def Respects (R : Item → Item → Prop) (read : Item → Except Misfit α) : Prop :=
  ∀ i j a, i.Proper → R i j → read i = .ok a → read j = .ok a

variable {R : Item → Item → Prop} {read : Item → Except Misfit α}

/-- What is read from scalars alone, wherever they stand. -/
theorem respects_of_scalar (only : ∀ i a, read i = .ok a →
    ∃ span value, i = .scalar span value ∧ ∀ span', read (.scalar span' value) = .ok a) :
    Respects Same read := by
  intro i j a _ same reading
  obtain ⟨span, value, rfl, anywhere⟩ := only i a reading
  cases same
  exact anywhere _

theorem respects_asString (expected : String) : Respects Same (asString expected) := by
  refine respects_of_scalar fun i s reading => ?_
  unfold asString at reading
  split at reading <;> cases reading
  exact ⟨_, _, rfl, fun _ => rfl⟩

theorem respects_asBoolean : Respects Same asBoolean := by
  refine respects_of_scalar fun i b reading => ?_
  unfold asBoolean at reading
  split at reading <;> cases reading
  exact ⟨_, _, rfl, fun _ => rfl⟩

/-- What is put in its place is read alike if it is read alike before. -/
theorem Respects.put {f : α → Except Misfit β} (h : Respects R read) :
    Respects R fun i => read i >>= f := by
  intro i j b proper related reading
  obtain ⟨a, first, then_⟩ := bind_eq_ok_iff.mp reading
  exact bind_eq_ok_iff.mpr ⟨a, h i j a proper related first, then_⟩

/-- Steps over related things have the same results. -/
theorem mapM_of_forall₂ {γ : Type} {S : α → γ → Prop} {f : α → Except ε β} {g : γ → Except ε β}
    {xs : List α} {zs : List γ} {ys : List β} (related : List.Forall₂ S xs zs)
    (each : ∀ x ∈ xs, ∀ z y, S x z → f x = .ok y → g z = .ok y) (all : xs.mapM f = .ok ys) :
    zs.mapM g = .ok ys := by
  rw [mapM_eq_ok_iff] at all ⊢
  induction related generalizing ys with
  | nil =>
    cases all
    exact .nil
  | cons first _ ih =>
    cases all with
    | cons here there =>
      obtain ⟨this, others⟩ := List.forall_mem_cons.mp each
      exact .cons (this _ _ first here) (ih others there)

theorem Respects.asList (h : Respects R read) : Respects (Elementwise R) (asList read) := by
  rintro _ _ as proper ⟨_, _, _, _, related⟩ reading
  simp only [Item.asList, within_eq_ok_iff] at reading ⊢
  have each := Item.proper_list_iff.mp proper
  exact mapM_of_forall₂ related (fun i hi j a => h i j a (each i hi)) reading

theorem Respects.asList_same (h : Respects Same read) : Respects Same (Item.asList read) := by
  rintro _ _ as proper ⟨⟩ reading
  · cases reading
  · next related => exact h.asList _ _ as proper (.list _ _ _ _ related) reading
  · cases reading

theorem forall₂_entries (names : entries.map (·.1.name) = entries'.map (·.1.name))
    (items : List.Forall₂ R (entries.map Prod.snd) (entries'.map Prod.snd)) :
    List.Forall₂ (fun e e' => e.1.name = e'.1.name ∧ R e.2 e'.2) entries entries' := by
  induction entries generalizing entries' with
  | nil =>
    cases List.map_eq_nil_iff.mp names.symm
    exact .nil
  | cons e entries ih =>
    cases entries' with
    | nil => cases names
    | cons e' entries' =>
      obtain ⟨name, names⟩ := List.cons.inj names
      cases items with
      | cons item items => exact .cons ⟨name, item⟩ (ih names items)

theorem Respects.asMap (h : Respects Same read) : Respects Same (Item.asMap read) := by
  rintro _ _ as proper ⟨⟩ reading
  · next value =>
    cases value with
    | moment => simpa only [Item.asMap, entries?, within_eq_ok_iff] using reading
    | _ => cases reading
  · cases reading
  · next names items =>
    simp only [Item.asMap, entries?, within_eq_ok_iff] at reading ⊢
    have each := (Item.proper_table_iff.mp proper).2
    refine mapM_of_forall₂ (forall₂_entries names items) (fun e he e' b same first => ?_) reading
    rw [within_eq_ok_iff, map_eq_ok_iff] at first ⊢
    obtain ⟨a, first, rfl⟩ := first
    exact ⟨a, h _ _ _ (each e he) same.2 first, by rw [same.1]⟩

namespace Slots

variable {r : RecordReader σ α} {declared : List (String × (Item → Bool))}
  {required : List String} {filled : (String → Option Item) → σ} {s s' : σ} {a : α}
  {R : String → Item → Item → Prop}

theorem readEntry_of_related (h : Slots r declared required filled)
    (each : ∀ d ∈ declared, ∀ s, Respects (R d.1) (r.read s d.1)) {e e' : Key × Item}
    (proper : e.2.Proper) (name : e.1.name = e'.1.name) (related : R e.1.name e.2 e'.2)
    (reading : r.readEntry s e = .ok s') : r.readEntry s e' = .ok s' := by
  unfold RecordReader.readEntry at reading ⊢
  rw [← name]
  split at reading
  · next known =>
    rw [if_pos known]
    obtain ⟨d, hd, same⟩ := List.mem_map.mp (h.fields ▸ known)
    rw [within_eq_ok_iff, ← same] at reading ⊢
    exact each d hd s _ _ _ proper (same ▸ related) reading
  · cases reading

theorem foldlM_of_forall₂ (h : Slots r declared required filled)
    (each : ∀ d ∈ declared, ∀ s, Respects (R d.1) (r.read s d.1))
    (proper : ∀ e ∈ entries, e.2.Proper)
    (related : List.Forall₂ (fun e e' => e.1.name = e'.1.name ∧ R e.1.name e.2 e'.2)
      entries entries')
    (reading : entries.foldlM r.readEntry s = .ok s') :
    entries'.foldlM r.readEntry s = .ok s' := by
  induction related generalizing s with
  | nil => exact reading
  | cons first _ ih =>
    obtain ⟨here, others⟩ := List.forall_mem_cons.mp proper
    rw [List.foldlM_cons, bind_eq_ok_iff] at reading ⊢
    obtain ⟨s₁, step, rest⟩ := reading
    exact ⟨s₁, h.readEntry_of_related each here first.1 first.2 step, ih others rest⟩

/-- A record is read alike from its keys in another order, if each field is read alike from what is
put in its place. -/
theorem respects (h : Slots r declared required filled)
    (each : ∀ d ∈ declared, ∀ s, Respects (R d.1) (r.read s d.1)) :
    Respects (Reordered R) r.decode := by
  rintro _ _ a proper ⟨_, _, _, _, perm, related⟩ reading
  obtain ⟨distinct, inside⟩ := Item.proper_table_iff.mp proper
  simp only [RecordReader.decode, entries?, within_eq_ok_iff, bind_eq_ok_iff] at reading ⊢
  obtain ⟨s, entered, finished⟩ := reading
  -- The state that is reached is filled from what the entries say, so they may be sorted first;
  -- then each of them is replaced in its place.
  rw [← h.start, h.foldlM_eq_ok_iff, toldAll_perm distinct perm, perm.all_eq,
    ← h.foldlM_eq_ok_iff, h.start] at entered
  have sorted := fun e he => inside e (perm.mem_iff.mpr he)
  exact ⟨s, h.foldlM_of_forall₂ each sorted related entered, finished⟩

end Slots

end FpgaProject.Toml
