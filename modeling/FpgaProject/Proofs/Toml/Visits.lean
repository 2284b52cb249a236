import FpgaProject.Proofs.Toml.Record
import FpgaProject.Usage

/-!
What is met in a document, in the order in which it is read.

A document is taken apart into visits: the keys in their order, what stands behind a key when that
key is met, and at the end of a table the fields that it must have. Whether what is met is a problem
is decided from that alone (`Met.problem?`). What reading complains about is the first problem that
it is told of (`reported?`); it is told of all but dates that stand in place of tables. This is
proved for each way of reading from its parts: `Item.misfit?_asList`, `Item.misfit?_asMap` and, for
records, `Slots.misfit?_decode`.
-/

namespace FpgaProject.Toml

variable {α β σ : Type}

/-! ### Problems -/

/-- What an item is, without what is in it and where it stands. -/
inductive Shape where
  | scalar (value : Scalar)
  | list
  | table
deriving DecidableEq, Repr

def Shape.found : Shape → Found
  | .scalar value => (Item.scalar none value).found
  | .list => .sequence
  | .table => .map

def Item.shape : Item → Shape
  | .scalar _ value => .scalar value
  | .list .. => .list
  | .table .. => .table

/-- What can be asked for where a value is met. -/
inductive Asked where
  | text
  | path
  | stage
  | flag
  | list
  | bindings
  | generic
deriving DecidableEq, Repr

/-- What is wrong with a value where something is asked for. -/
def Asked.problem? : Asked → Shape → Option Problem
  | .text, .scalar (.string _) | .path, .scalar (.string _) => none
  | .text, s => some (.wrongType s.found "a string")
  | .path, s => some (.wrongType s.found "path string")
  | .stage, .scalar (.string word) =>
    if (Usage.ofWord? word).isSome then none else some (.refused (Usage.complaint word))
  | .stage, s => some (.wrongType s.found "a string")
  | .flag, .scalar (.boolean _) => none
  | .flag, s => some (.wrongType s.found "a boolean")
  | .list, .list => none
  | .list, s => some (.wrongType s.found "a sequence")
  | .bindings, .table => none
  | .bindings, s => some (.wrongType s.found "a map")
  | .generic, .scalar (.moment _) | .generic, .list | .generic, .table => some .noGeneric
  | .generic, .scalar _ => none

/-- What can be met: a key, in a table with certain fields or with any keys; a value; and, at the
end of a table, a field that must be there, given or not. -/
inductive Met where
  | key (name : String) (fields : Option (List String))
  | value (shape : Shape) (asked : Asked)
  | required (name : String) (given : Bool)
deriving DecidableEq, Repr

namespace Met

def problem? : Met → Option Problem
  | .key _ none => none
  | .key name (some fields) =>
    if name ∈ fields then none else some (.unknownField name fields)
  | .value shape asked => asked.problem? shape
  | .required _ true => none
  | .required name false => some (.missingField name)

/-- A date in place of a table with any keys is a problem that is overlooked: it is read as a table
with one key. -/
def overlooked : Met → Bool
  | .value (.scalar (.moment _)) .bindings => true
  | _ => false

def told? (m : Met) : Option Problem :=
  if m.overlooked then none else m.problem?

theorem told?_of_not_overlooked {m : Met} (seen : m.overlooked = false) : m.told? = m.problem? := by
  rw [told?, seen]
  rfl

theorem overlooked_iff {m : Met} :
    m.overlooked = true ↔ m.problem? = some (.wrongType .map "a map") := by
  constructor
  · intro unseen
    unfold overlooked at unseen
    split at unseen
    · rfl
    · cases unseen
  · intro wrong
    cases m with
    | key name fields =>
      unfold problem? at wrong
      split at wrong <;> simp_all
    | value shape asked =>
      -- Only bindings are asked to be a map, and only a date is found to be one without being it.
      cases asked <;> rcases shape with ⟨_ | _ | _ | _ | _⟩ | _ | _ <;>
        simp [problem?, Asked.problem?, overlooked, Shape.found, Item.found] at wrong ⊢
    | required name given => cases given <;> cases wrong

/-- Nothing is wrong if nothing is told and nothing is overlooked. -/
theorem problem?_eq_none_iff {m : Met} :
    m.problem? = none ↔ m.told? = none ∧ m.overlooked = false := by
  constructor
  · intro fine
    refine ⟨by rw [told?, fine, ite_self], ?_⟩
    apply eq_false_of_ne_true
    intro unseen
    rw [overlooked_iff, fine] at unseen
    cases unseen
  · rintro ⟨silent, seen⟩
    rwa [told?_of_not_overlooked seen] at silent

/-- The problem that is overlooked is never told, wherever it is met. -/
theorem told?_ne_of_overlooked {m : Met} (unseen : m.overlooked = true) (other : Met) :
    other.told? ≠ m.problem? := by
  rw [overlooked_iff.mp unseen]
  intro same
  unfold told? at same
  split at same
  · cases same
  · next seen => exact seen (overlooked_iff.mpr same)

end Met

/-! ### Visits -/

/-- What is met, and where. -/
structure Visit where
  met : Met
  span : Option Span
deriving Repr

def Visit.misfit? (v : Visit) : Option Misfit :=
  v.met.told?.map fun problem => ⟨problem, v.span⟩

def reported? (vs : List Visit) : Option Misfit :=
  vs.findSome? Visit.misfit?

/-- Visits that stand, if they have no place, at this one. -/
def placed (span : Option Span) (vs : List Visit) : List Visit :=
  vs.map fun v => { v with span := v.span.or span }

def Item.entries : Item → List (Key × Item)
  | .table _ _ entries => entries
  | _ => []

namespace Item

def visit (i : Item) (asked : Asked) : Visit :=
  ⟨.value i.shape asked, i.span⟩

def listVisits (inside : Item → List Visit) (i : Item) : List Visit :=
  i.visit .list :: placed i.span (i.elements.flatMap inside)

def bindingVisits (inside : Item → List Visit) (e : Key × Item) : List Visit :=
  ⟨.key e.1.name none, e.1.span⟩ :: placed e.2.span (inside e.2)

/-- The visits of a table with any keys, given those of what stands behind them. -/
def mapVisits (inside : Item → List Visit) (i : Item) : List Visit :=
  i.visit .bindings :: placed i.span (i.entries.flatMap (bindingVisits inside))

/-- The visits of an entry of a table with certain fields. What stands behind another key is not
looked at. -/
def entryVisits (fields : List String) (behind : String → Item → List Visit) (e : Key × Item) :
    List Visit :=
  ⟨.key e.1.name (some fields), e.1.span⟩ ::
    if e.1.name ∈ fields then placed e.2.span (behind e.1.name e.2) else []

/-- The visits of a table with certain fields, given those of what stands behind them: first its
entries, then the fields that it must have. -/
def recordVisits (fields required : List String) (behind : String → Item → List Visit) (i : Item) :
    List Visit :=
  placed i.span (i.entries.flatMap (entryVisits fields behind) ++
    required.map fun name => ⟨.required name (i.entries.any (·.1.name = name)), none⟩)

end Item

/-! ### The first misfit of visits -/

theorem findSome?_cons_eq_or (f : β → Option α) (x : β) (xs : List β) :
    (x :: xs).findSome? f = (f x).or (xs.findSome? f) := by
  rw [List.findSome?_cons]
  cases f x <;> rfl

theorem reported?_cons (v : Visit) (vs : List Visit) :
    reported? (v :: vs) = v.misfit?.or (reported? vs) :=
  findSome?_cons_eq_or _ v vs

theorem reported?_append (vs ws : List Visit) :
    reported? (vs ++ ws) = (reported? vs).or (reported? ws) :=
  List.findSome?_append

theorem reported?_singleton (v : Visit) : reported? [v] = v.misfit? := by
  rw [reported?_cons]
  exact Option.or_none

theorem reported?_flatMap (xs : List β) (g : β → List Visit) :
    reported? (xs.flatMap g) = xs.findSome? fun x => reported? (g x) := by
  induction xs with
  | nil => rfl
  | cons x xs ih =>
    rw [List.flatMap_cons, reported?_append, ih, findSome?_cons_eq_or]

theorem reported?_placed (span : Option Span) (vs : List Visit) :
    reported? (placed span vs) = (reported? vs).map (·.placedAt span) := by
  induction vs with
  | nil => rfl
  | cons v vs ih =>
    have first : Visit.misfit? { v with span := v.span.or span } =
        v.misfit?.map (·.placedAt span) := by
      rw [Visit.misfit?, Visit.misfit?, Option.map_map]
      rfl
    rw [placed] at ih
    rw [placed, List.map_cons, reported?_cons, first, reported?_cons, ih, Option.map_or]

theorem findSome?_congr {xs : List β} {f g : β → Option α} (same : ∀ x ∈ xs, f x = g x) :
    xs.findSome? f = xs.findSome? g := by
  induction xs with
  | nil => rfl
  | cons x xs ih =>
    obtain ⟨first, rest⟩ := List.forall_mem_cons.mp same
    rw [findSome?_cons_eq_or, findSome?_cons_eq_or, first, ih rest]

/-- These visits come first and have no problem, and the one after them has this. -/
structure First (problem? : Met → Option Problem) (vs before : List Visit) (v : Visit)
    (problem : Problem) : Prop where
  comes : before ++ [v] <+: vs
  silent : ∀ b ∈ before, problem? b.met = none
  found : problem? v.met = some problem

/-- Where the same is met up to the first problem, the first problem is the same, whatever comes
later. -/
theorem First.of_met {problem? : Met → Option Problem} {vs ws before : List Visit} {v : Visit}
    {problem : Problem} (first : First problem? vs before v problem)
    (same : (before ++ [v]).map Visit.met <+: ws.map Visit.met) :
    ∃ before' v', First problem? ws before' v' problem := by
  obtain ⟨later, rest⟩ := same
  rw [List.map_append, List.append_assoc] at rest
  obtain ⟨before', others, rfl, early, rest⟩ := List.map_eq_append_iff.mp rest.symm
  obtain ⟨v', after, rfl, met, -⟩ := List.map_eq_cons_iff.mp rest
  refine ⟨before', v', ⟨⟨after, by simp⟩, ?_, met ▸ first.found⟩⟩
  intro b member
  have among : b.met ∈ before.map Visit.met := early ▸ List.mem_map_of_mem member
  obtain ⟨a, there, alike⟩ := List.mem_map.mp among
  exact alike ▸ first.silent a there

/-- The first misfit is that of the first visit with a problem that is told. -/
theorem reported?_eq_some_iff {vs : List Visit} {m : Misfit} :
    reported? vs = some m ↔
      ∃ before v problem, First Met.told? vs before v problem ∧ m = ⟨problem, v.span⟩ := by
  rw [reported?, List.findSome?_eq_some_iff]
  constructor
  · rintro ⟨before, v, after, rfl, found, silent⟩
    obtain ⟨problem, told, rfl⟩ := Option.map_eq_some_iff.mp found
    refine ⟨before, v, problem, ⟨⟨after, by simp⟩, fun b member => ?_, told⟩, rfl⟩
    exact Option.map_eq_none_iff.mp (silent b member)
  · rintro ⟨before, v, problem, ⟨⟨after, rfl⟩, silent, told⟩, rfl⟩
    refine ⟨before, v, after, by simp, Option.map_eq_some_iff.mpr ⟨problem, told, rfl⟩, ?_⟩
    exact fun b member => Option.map_eq_none_iff.mpr (silent b member)

theorem reported?_eq_none_iff {vs : List Visit} :
    reported? vs = none ↔ ∀ v ∈ vs, v.met.told? = none := by
  simp [reported?, Visit.misfit?]

/-! ### Dates that are overlooked -/

/-- Whether one of the visits is overlooked. -/
def overlooks (vs : List Visit) : Bool :=
  vs.any (·.met.overlooked)

theorem overlooks_cons (v : Visit) (vs : List Visit) :
    overlooks (v :: vs) = (v.met.overlooked || overlooks vs) := rfl

theorem overlooks_append (vs ws : List Visit) :
    overlooks (vs ++ ws) = (overlooks vs || overlooks ws) :=
  List.any_append

theorem overlooks_flatMap (xs : List β) (g : β → List Visit) :
    overlooks (xs.flatMap g) = xs.any fun x => overlooks (g x) :=
  List.any_flatMap

theorem overlooks_placed (span : Option Span) (vs : List Visit) :
    overlooks (placed span vs) = overlooks vs :=
  List.any_map

theorem forall_problem?_eq_none_iff {vs : List Visit} :
    (∀ v ∈ vs, v.met.problem? = none) ↔ reported? vs = none ∧ overlooks vs = false := by
  simp only [Met.problem?_eq_none_iff, reported?_eq_none_iff, overlooks, List.any_eq_false,
    Bool.not_eq_true, forall_and]

namespace Item

theorem overlooked_value (i : Item) (asked : Asked) :
    (Met.value i.shape asked).overlooked = (i.isMoment && asked == .bindings) := by
  rcases i with ⟨_, _ | _ | _ | _ | _⟩ | _ | _ <;> cases asked <;> rfl

theorem overlooks_listVisits (inside : Item → List Visit) (i : Item) :
    overlooks (i.listVisits inside) = i.elements.any fun j => overlooks (inside j) := by
  rw [listVisits, overlooks_cons, visit, overlooked_value, overlooks_placed, overlooks_flatMap]
  simp

theorem overlooks_mapVisits (inside : Item → List Visit) (i : Item) :
    overlooks (i.mapVisits inside) =
      (i.isMoment || i.entries.any fun e => overlooks (inside e.2)) := by
  rw [mapVisits, overlooks_cons, visit, overlooked_value, overlooks_placed, overlooks_flatMap]
  simp [bindingVisits, overlooks_cons, Met.overlooked, overlooks_placed]

theorem overlooks_recordVisits (fields required : List String)
    (behind : String → Item → List Visit) (i : Item) :
    overlooks (i.recordVisits fields required behind) = i.entries.any fun e =>
      decide (e.1.name ∈ fields) && overlooks (behind e.1.name e.2) := by
  have entry : ∀ e, overlooks (entryVisits fields behind e) =
      (decide (e.1.name ∈ fields) && overlooks (behind e.1.name e.2)) := by
    intro e
    rw [entryVisits, overlooks_cons]
    by_cases known : e.1.name ∈ fields
    · simp [known, Met.overlooked, overlooks_placed]
    · simp [known, Met.overlooked, overlooks]
  have asked : overlooks (required.map fun name =>
      ⟨.required name (i.entries.any (·.1.name = name)), none⟩) = false := by
    simp [overlooks, Met.overlooked]
  rw [recordVisits, overlooks_placed, overlooks_append, overlooks_flatMap, asked, Bool.or_false]
  simp only [entry]

end Item

/-! ### The misfit of a result -/

/-- The misfit of a result that is none. -/
def misfit? : Except Misfit α → Option Misfit
  | .ok _ => none
  | .error m => some m

variable {x : Except Misfit α} {m : Misfit} {span : Option Span} {vs : List Visit}

theorem misfit?_eq_none_iff : misfit? x = none ↔ ∃ a, x = .ok a := by
  cases x <;> simp [misfit?]

theorem misfit?_within : misfit? (within span x) = (misfit? x).map (·.placedAt span) := by
  cases x <;> rfl

theorem misfit?_map (f : α → β) : misfit? (x.map f) = misfit? x := by
  cases x <;> rfl

/-- Putting what was read in its place gives no misfit of its own. -/
theorem misfit?_put (f : α → β) : misfit? (x >>= fun a => .ok (f a)) = misfit? x := by
  cases x <;> rfl

theorem misfit?_bind {f : α → Except Misfit β} {later : Option Misfit}
    (second : ∀ a, x = .ok a → misfit? (f a) = later) :
    misfit? (x >>= f) = (misfit? x).or later := by
  cases x with
  | error m => rfl
  | ok a => exact second a rfl

theorem misfit?_mapM (f : β → Except Misfit α) (xs : List β) :
    misfit? (xs.mapM f) = xs.findSome? fun x => misfit? (f x) := by
  induction xs with
  | nil => rfl
  | cons x xs ih =>
    have second : ∀ a, f x = .ok a →
        misfit? (xs.mapM f >>= fun as => .ok (a :: as)) = xs.findSome? fun x => misfit? (f x) :=
      fun a _ => (misfit?_put _).trans ih
    rw [List.mapM_cons, findSome?_cons_eq_or]
    exact misfit?_bind second

/-- If no complaint of a step depends on the state, neither does the first complaint of all. -/
theorem misfit?_foldlM {step : σ → β → Except Misfit σ} {complaint : β → Option Misfit}
    {xs : List β} (each : ∀ x ∈ xs, ∀ s, misfit? (step s x) = complaint x) (s : σ) :
    misfit? (xs.foldlM step s) = xs.findSome? complaint := by
  induction xs generalizing s with
  | nil => rfl
  | cons x xs ih =>
    obtain ⟨first, rest⟩ := List.forall_mem_cons.mp each
    rw [List.foldlM_cons, misfit?_bind fun s' _ => ih rest s', first, findSome?_cons_eq_or]

theorem misfit?_within_of (same : misfit? x = reported? vs) :
    misfit? (within span x) = reported? (placed span vs) := by
  rw [misfit?_within, same, reported?_placed]

theorem misfit?_within_put {f : α → β}
    (same : misfit? (within span x) = reported? (placed span vs)) :
    misfit? (within span (x >>= fun a => .ok (f a))) = reported? (placed span vs) := by
  rw [misfit?_within, misfit?_put, ← misfit?_within, same]

/-! ### Ways of reading -/

namespace Item

variable {i : Item} {read : Item → Except Misfit α} {inside : Item → List Visit}

theorem misfit?_asText (i : Item) :
    misfit? (i.asString "a string") = reported? [i.visit .text] := by
  rcases i with ⟨_, _ | _ | _ | _ | _⟩ | _ | _ <;> rfl

theorem misfit?_asPath (i : Item) :
    misfit? (i.asString "path string") = reported? [i.visit .path] := by
  rcases i with ⟨_, _ | _ | _ | _ | _⟩ | _ | _ <;> rfl

theorem misfit?_asBoolean (i : Item) : misfit? i.asBoolean = reported? [i.visit .flag] := by
  rcases i with ⟨_, _ | _ | _ | _ | _⟩ | _ | _ <;> rfl

theorem misfit?_asList (each : ∀ j ∈ i.elements, misfit? (read j) = reported? (inside j)) :
    misfit? (i.asList read) = reported? (i.listVisits inside) := by
  cases i with
  | list span kind items =>
    have first : ((Item.list span kind items).visit .list).misfit? = none := rfl
    rw [listVisits, reported?_cons, first, Option.none_or, reported?_placed, reported?_flatMap,
      asList, misfit?_within, misfit?_mapM]
    exact congrArg _ (findSome?_congr each)
  | scalar span value => cases value <;> rfl
  | table => rfl

/-- A date passes for a table, if a text can stand behind its key. -/
theorem misfit?_asMap (each : ∀ e ∈ i.entries,
      misfit? (within e.2.span (read e.2)) = reported? (placed e.2.span (inside e.2)))
    (texts : ∀ s, misfit? (read (.ofString s)) = none) :
    misfit? (i.asMap read) = reported? (i.mapVisits inside) := by
  rcases i with ⟨span, _ | _ | _ | _ | s⟩ | _ | ⟨span, kind, entries⟩
  case table =>
    have one : ∀ e ∈ entries, misfit? (within e.2.span ((read e.2).map fun a => (e.1.name, a))) =
        reported? (bindingVisits inside e) := by
      intro e member
      have key : Visit.misfit? ⟨.key e.1.name none, e.1.span⟩ = none := rfl
      rw [bindingVisits, reported?_cons, key, Option.none_or, misfit?_within, misfit?_map,
        ← misfit?_within]
      exact each e member
    have first : ((Item.table span kind entries).visit .bindings).misfit? = none := rfl
    rw [mapVisits, reported?_cons, first, Option.none_or, reported?_placed, reported?_flatMap]
    simp only [asMap, entries?, misfit?_within, misfit?_mapM]
    exact congrArg _ (findSome?_congr fun e member => (misfit?_within.symm.trans (one e member)))
  case scalar.moment =>
    have text := texts s
    simp only [asMap, entries?, misfit?_within, misfit?_mapM, misfit?_map, List.findSome?_cons,
      text]
    rfl
  all_goals rfl

end Item

/-- A record complains about the first problem of its table: of its entries one after another, and
only then about the first required field that is not there. -/
theorem Slots.misfit?_decode {r : RecordReader σ α} {declared : List (String × (Item → Bool))}
    {required : List String} {filled : (String → Option Item) → σ} {kind : TableKind}
    {entries : List (Key × Item)} {behind : String → Item → List Visit}
    (h : Slots r declared required filled)
    (each : ∀ e ∈ entries, e.1.name ∈ r.fields → ∀ s,
      misfit? (within e.2.span (r.read s e.1.name e.2)) =
        reported? (placed e.2.span (behind e.1.name e.2)))
    (finish : ∀ look,
      (∀ name p i, declared.lookup name = some p → look name = some i → p i = true) →
      misfit? (r.finish (filled look)) =
        reported? (required.map fun name => ⟨.required name (look name).isSome, none⟩)) :
    misfit? (r.decode (.table span kind entries)) =
      reported? ((Item.table span kind entries).recordVisits r.fields required behind) := by
  have entry : ∀ e ∈ entries, ∀ s,
      misfit? (r.readEntry s e) = reported? (Item.entryVisits r.fields behind e) := by
    intro e member s
    by_cases known : e.1.name ∈ r.fields
    · have key : Visit.misfit? ⟨.key e.1.name (some r.fields), e.1.span⟩ = none := by
        simp [Visit.misfit?, Met.told?, Met.problem?, known]
      rw [RecordReader.readEntry, Item.entryVisits, if_pos known, if_pos known, reported?_cons, key,
        each e member known]
      rfl
    · have key : Visit.misfit? ⟨.key e.1.name (some r.fields), e.1.span⟩ =
          some ⟨.unknownField e.1.name r.fields, e.1.span⟩ := by
        simp [Visit.misfit?, Met.told?, Met.problem?, Met.overlooked, known]
      rw [RecordReader.readEntry, Item.entryVisits, if_neg known, if_neg known, reported?_cons, key]
      rfl
  have second : ∀ s, entries.foldlM r.readEntry r.start = .ok s →
      misfit? (r.finish s) = reported? (required.map fun name =>
        ⟨.required name (entries.any (·.1.name = name)), none⟩) := by
    intro s entered
    rw [← h.start, h.foldlM_eq_ok_iff] at entered
    obtain ⟨fit, rfl⟩ := entered
    rw [finish _ (fitting_of_fits fit)]
    simp only [isSome_toldAll]
  simp only [RecordReader.decode, Item.entries?, Item.recordVisits, Item.entries, Item.span,
    misfit?_within, reported?_placed, reported?_append, reported?_flatMap, misfit?_bind second,
    misfit?_foldlM entry]

end FpgaProject.Toml
