import FpgaProject.Proofs.Toml.Written

/-!
What stands in a document that was read.

No table of a document has a key twice. Each way in which a table changes while a document is read
keeps that (`Table.Proper.alter`), values in brackets and braces are made of values one level down
(`yields_value`), and a draft stays proper from line to line (`yields_lines`). Main statement:
`Table.proper_of_ofText?`.
-/

namespace FpgaProject.Text.Reader

variable {α β : Type} {P : α → Prop} {Q : β → Prop}

/-- Whatever the reader takes has a property. -/
def Yields (P : α → Prop) (r : Reader α) : Prop :=
  ∀ c a c', r c = some (a, c') → P a

theorem yields_any (r : Reader α) : Yields (fun _ => True) r :=
  fun _ _ _ _ => trivial

theorem yields_pure {a : α} (h : P a) : Yields P (pure a) := by
  rintro c _ _ ⟨⟩
  exact h

theorem yields_refuse : Yields P refuse := by
  rintro c a c' ⟨⟩

/-- What is taken second has the property, whatever was taken first. -/
theorem Yields.bind {r : Reader α} {f : α → Reader β} (first : Yields P r)
    (second : ∀ a, P a → Yields Q (f a)) : Yields Q (r >>= f) := by
  intro c b c' taken
  simp only [Bind.bind] at taken
  split at taken
  · cases taken
  · next a c₁ found => exact second a (first c a c₁ found) c₁ b c' taken

theorem yields_bind {r : Reader α} {f : α → Reader β} (second : ∀ a, Yields Q (f a)) :
    Yields Q (r >>= f) :=
  (yields_any r).bind fun a _ => second a

theorem yields_firstOf {readers : List (Reader α)} (each : ∀ r ∈ readers, Yields P r) :
    Yields P (firstOf readers) := by
  induction readers with
  | nil => exact yields_refuse
  | cons r readers ih =>
    intro c a c' taken
    have others := ih fun s hs => each s (List.mem_cons_of_mem r hs)
    simp only [firstOf, List.foldr_cons, orElse] at taken
    split at taken
    · exact others c a c' taken
    · exact each r List.mem_cons_self c a c' taken

theorem Yields.optional {r : Reader α} (h : Yields P r) :
    Yields (fun o => ∀ a ∈ o, P a) (optional r) := by
  intro c o c' taken
  simp only [Reader.optional] at taken
  split at taken <;> cases taken
  · simp
  · next a found => simpa using h _ a _ found

theorem Yields.many {r : Reader α} (h : Yields P r) (fuel : Nat) :
    Yields (fun as => ∀ a ∈ as, P a) (many r fuel) := by
  induction fuel with
  | zero => exact yields_pure (by simp)
  | succ fuel ih =>
    intro c as c' taken
    simp only [Reader.many] at taken
    split at taken
    · cases taken
      simp
    · next a c₁ found =>
      split at taken
      · cases taken
      · next as c₂ others =>
        cases taken
        rintro b hb
        rcases List.mem_cons.mp hb with rfl | hb
        · exact h _ _ _ found
        · exact ih _ _ _ others b hb

theorem Yields.repeated {r : Reader α} (h : Yields P r) :
    Yields (fun as => ∀ a ∈ as, P a) (repeated r) :=
  yields_bind fun rest => h.many rest.length

end FpgaProject.Text.Reader

namespace FpgaProject.Toml

open Text Text.Reader

theorem Item.proper_list_iff {span : Option Span} {kind : ListKind} {items : List Item} :
    (Item.list span kind items).Proper ↔ ∀ i ∈ items, i.Proper := by
  constructor
  · rintro ⟨⟩
    assumption
  · exact .list span kind

theorem Item.proper_table_iff {span : Option Span} {kind : TableKind}
    {entries : List (Key × Item)} : (Item.table span kind entries).Proper ↔
      (entries.map (·.1.name)).Nodup ∧ ∀ e ∈ entries, e.2.Proper := by
  constructor
  · rintro ⟨⟩
    constructor <;> assumption
  · exact fun ⟨distinct, each⟩ => .table span kind distinct each

/-! ### Tables under construction -/

namespace Table

variable {t t' : Table} {name : String} {k : Key} {i : Item} {path : List Key} {way : Way}

/-- Neither the table nor one in it has a key twice. -/
def Proper (t : Table) : Prop :=
  t.item.Proper

theorem proper_iff :
    t.Proper ↔ (t.entries.map (·.1.name)).Nodup ∧ ∀ e ∈ t.entries, e.2.Proper :=
  Item.proper_table_iff

/-- Where a table stands and how it came about do not matter. -/
theorem Proper.of_entries (h : t.Proper) (same : t'.entries = t.entries) : t'.Proper :=
  proper_iff.mpr (same ▸ proper_iff.mp h)

theorem proper_empty (span : Option Span) (kind : TableKind) : Proper ⟨span, kind, []⟩ :=
  .table _ _ List.nodup_nil (by simp)

theorem find?_eq_none_iff : t.find? name = none ↔ name ∉ t.entries.map (·.1.name) := by
  simp [find?, List.mem_map]

theorem Proper.of_find? (h : t.Proper) (found : t.find? name = some i) : i.Proper := by
  obtain ⟨e, he, rfl⟩ := Option.map_eq_some_iff.mp found
  exact (proper_iff.mp h).2 e (List.mem_of_find?_eq_some he)

theorem Proper.append (h : t.Proper) (new : t.find? k.name = none) (proper : i.Proper) :
    (t.append k i).Proper := by
  obtain ⟨distinct, each⟩ := proper_iff.mp h
  refine proper_iff.mpr ⟨?_, fun e he => ?_⟩
  · have apart : k.name ∉ t.entries.map (·.1.name) := find?_eq_none_iff.mp new
    simp only [Table.append, List.map_append, List.map_cons, List.map_nil]
    exact List.nodup_append.mpr ⟨distinct, by simp, fun a ha b hb e =>
      apart (List.mem_singleton.mp hb ▸ e ▸ ha)⟩
  · rcases List.mem_append.mp he with he | he
    · exact each e he
    · cases List.mem_singleton.mp he
      exact proper

theorem Proper.replace (h : t.Proper) (proper : i.Proper) : (t.replace name i).Proper := by
  obtain ⟨distinct, each⟩ := proper_iff.mp h
  refine proper_iff.mpr ⟨?_, fun e he => ?_⟩
  · have same : (t.replace name i).entries.map (·.1.name) = t.entries.map (·.1.name) := by
      simp only [Table.replace, List.map_map]
      refine List.map_congr_left fun e _ => ?_
      simp only [Function.comp_apply]
      split <;> rfl
    rwa [same]
  · obtain ⟨old, member, rfl⟩ := List.mem_map.mp he
    simp only
    split
    · exact proper
    · exact each old member

theorem Proper.erase (h : t.Proper) : (t.erase name).Proper := by
  obtain ⟨distinct, each⟩ := proper_iff.mp h
  refine proper_iff.mpr ⟨?_, fun e he => each e (List.mem_filter.mp he).1⟩
  exact distinct.sublist (List.filter_sublist.map _)

/-- A change at the end of a way that keeps tables proper does so for the table at its start. -/
theorem Proper.alter {f : Table → Option Table} (h : t.Proper)
    (keeps : ∀ inner inner', inner.Proper → f inner = some inner' → inner'.Proper)
    (altered : t.alter way path f = some t') : t'.Proper := by
  -- The table behind the first key is a new one, one that stands there, or the last of a list.
  induction path generalizing t t' with
  | nil => exact keeps t t' h altered
  | cons k path ih =>
    simp only [Table.alter] at altered
    split at altered
    · next new =>
      obtain ⟨made, making, out⟩ := Option.bind_eq_some_iff.mp altered
      cases out
      exact h.append new (ih (proper_empty none way.makes) making)
    · next span kind entries found =>
      split at altered
      · obtain ⟨changed, changing, out⟩ := Option.bind_eq_some_iff.mp altered
        cases out
        exact h.replace (ih (h.of_find? found) changing)
      · cases altered
    · next span items found =>
      have each : ∀ i ∈ items, i.Proper := Item.proper_list_iff.mp (h.of_find? found)
      split at altered
      · next lastSpan kind entries last =>
        obtain ⟨changed, changing, out⟩ := Option.bind_eq_some_iff.mp altered
        cases out
        have open_ : Proper ⟨lastSpan, kind, entries⟩ := each _ (List.mem_of_getLast? last)
        have inside := ih open_ changing
        refine h.replace (Item.proper_list_iff.mpr fun i hi => ?_)
        rcases List.mem_append.mp hi with hi | hi
        · exact each i (items.dropLast_sublist.subset hi)
        · cases List.mem_singleton.mp hi
          exact inside
      · cases altered
    · cases altered

theorem Proper.addDotted (h : t.Proper) (proper : i.Proper)
    (added : t.addDotted way path k i = some t') : t'.Proper := by
  refine h.alter (fun inner inner' hi changed => ?_) added
  split at changed
  · cases changed
  · split at changed
    · cases changed
    · next new =>
      cases changed
      exact hi.append (by simpa using new) proper

theorem Proper.addAll {pairs : List ((List Key × Key) × Item)} (h : t.Proper)
    (each : ∀ p ∈ pairs, p.2.Proper)
    (added : pairs.foldlM (fun (t : Table) p => t.addDotted way p.1.1 p.1.2 p.2) t = some t') :
    t'.Proper := by
  induction pairs generalizing t with
  | nil =>
    cases added
    exact h
  | cons p pairs ih =>
    obtain ⟨first, adding, rest⟩ := Option.bind_eq_some_iff.mp added
    obtain ⟨proper, others⟩ := List.forall_mem_cons.mp each
    exact ih (h.addDotted proper adding) others rest

/-- The table that keys lead to is proper if the one that they start from is. -/
theorem Proper.at? (h : t.Proper) (found : t.at? path = some t') : t'.Proper := by
  induction path generalizing t with
  | nil =>
    cases found
    exact h
  | cons k path ih =>
    simp only [Table.at?] at found
    split at found
    · next inside => exact ih (h.of_find? inside) found
    · next inside =>
      split at found
      · next span kind entries last =>
        have each := Item.proper_list_iff.mp (h.of_find? inside)
        have open_ : Proper ⟨span, kind, entries⟩ := each _ (List.mem_of_getLast? last)
        exact ih open_ found
      · cases found
    · cases found

end Table

/-! ### Values -/

theorem yields_spanned {α : Type} {P : α → Prop} {r : Reader α} (h : Yields P r) :
    Yields (fun p => P p.1) (spanned r) :=
  yields_bind fun _ => h.bind fun _ ha => yields_bind fun _ => yields_pure ha

theorem yields_scalar : Yields Item.Proper scalar :=
  yields_bind fun _ => yields_pure (.scalar _ _)

theorem yields_padded {r : Reader Item} (h : Yields Item.Proper r) :
    Yields Item.Proper (padded r) :=
  yields_bind fun _ => h.bind fun _ hi => yields_bind fun _ => yields_pure hi

theorem yields_keyValue {r : Reader Item} (h : Yields Item.Proper r) :
    Yields (fun p => p.2.Proper) (keyValue r) :=
  yields_bind fun _ => yields_bind fun _ => (yields_padded h).bind fun _ hi => yields_pure hi

theorem yields_bracketed {r : Reader Item} (h : Yields Item.Proper r) :
    Yields Item.Proper (bracketed r) := by
  have followed : Yields Item.Proper (do let i ← r; gap; pure i) :=
    h.bind fun _ hi => yields_bind fun _ => yields_pure hi
  have other : Yields Item.Proper (do char ','; gap; let j ← r; gap; pure j) :=
    yields_bind fun _ => yields_bind fun _ => followed
  refine (yields_spanned (P := fun items => ∀ i ∈ items, i.Proper) ?_).bind fun p hp =>
    yields_pure (Item.proper_list_iff.mpr hp)
  refine yields_bind fun _ => yields_bind fun _ => followed.optional.bind fun first hfirst => ?_
  have closing (items : List Item) (each : ∀ i ∈ items, i.Proper) :
      Yields (fun items => ∀ i ∈ items, i.Proper) (do char ']'; pure items) :=
    yields_bind fun _ => yields_pure each
  cases first with
  | none => exact (yields_pure (by simp)).bind closing
  | some i =>
    refine other.repeated.bind fun others hothers => yields_bind fun _ => ?_
    exact (yields_pure (List.forall_mem_cons.mpr ⟨hfirst i rfl, hothers⟩)).bind closing

theorem yields_braced {r : Reader Item} (h : Yields Item.Proper r) :
    Yields Item.Proper (braced r) := by
  have pair := yields_keyValue h
  refine (yields_spanned (P := fun pairs => ∀ p ∈ pairs, p.2.Proper) ?_).bind fun p hp => ?_
  · refine yields_bind fun _ => pair.optional.bind fun first hfirst => ?_
    have closing (others : List ((List Key × Key) × Item)) (each : ∀ p ∈ others, p.2.Proper) :
        Yields (fun pairs => ∀ p ∈ pairs, p.2.Proper)
          (do spaces; char '\x7d'; pure (first.toList ++ others)) := by
      refine yields_bind fun _ => yields_bind fun _ => yields_pure fun p hp => ?_
      rcases List.mem_append.mp hp with hp | hp
      · exact hfirst p (Option.mem_toList.mp hp)
      · exact each p hp
    cases first with
    | none => exact (yields_pure (by simp)).bind closing
    | some p => exact (Yields.repeated (yields_bind fun _ => pair)).bind closing
  · obtain ⟨pairs, span⟩ := p
    simp only
    split
    · next t built => exact yields_pure ((Table.proper_empty _ _).addAll hp built)
    · exact yields_refuse

theorem yields_value (depth : Nat) : Yields Item.Proper (value depth) := by
  induction depth with
  | zero => exact yields_scalar
  | succ depth ih =>
    refine yields_firstOf fun r hr => ?_
    simp only [List.mem_cons, List.not_mem_nil, or_false] at hr
    rcases hr with rfl | rfl | rfl
    · exact yields_scalar
    · exact yields_bracketed ih
    · exact yields_braced ih

/-! ### Drafts -/

theorem proper_of_appendTable {i j : Item} {t : Table} (h : i.Proper) (ht : t.Proper)
    (appended : appendTable i t = some j) : j.Proper := by
  unfold appendTable at appended
  split at appended
  · cases appended
    refine Item.proper_list_iff.mpr fun e he => ?_
    rcases List.mem_append.mp he with he | he
    · exact Item.proper_list_iff.mp h e he
    · cases List.mem_singleton.mp he
      exact ht
  · cases appended

/-- What is closed and the table that is open are proper. -/
structure Draft.Proper (d : Draft) : Prop where
  closed : d.closed.Proper
  current : d.current.Proper

namespace Draft

variable {d d' : Draft} {path : List Key × Key} {span : Span} {t : Table} {i : Item}

theorem proper_start : start.Proper :=
  ⟨Table.proper_empty _ _, Table.proper_empty _ _⟩

theorem Proper.close (h : d.Proper) (closed : d.close = some t) : t.Proper := by
  have noTables : (Item.list none .headed []).Proper := .list _ _ (by simp)
  unfold Draft.close at closed
  split at closed
  · cases closed
    exact h.current
  · refine h.closed.alter (fun parent parent' proper changed => ?_) closed
    split at changed
    · split at changed <;> obtain ⟨j, appended, rfl⟩ := Option.map_eq_some_iff.mp changed
      · next new => exact proper.append new (proper_of_appendTable noTables h.current appended)
      · next i found =>
        exact proper.replace (proper_of_appendTable (proper.of_find? found) h.current appended)
    · split at changed <;> cases changed
      next new => exact proper.append new h.current

/-- A header takes over what longer headers put into its table. -/
theorem Proper.openTable (h : d.Proper) (opened : d.openTable path span = some d') :
    d'.Proper := by
  obtain ⟨closed, closing, rest⟩ := Option.bind_eq_some_iff.mp opened
  obtain ⟨reached, reaching, rest⟩ := Option.bind_eq_some_iff.mp rest
  have proper : reached.Proper := (h.close closing).alter (by rintro _ _ hi ⟨⟩; exact hi) reaching
  split at rest
  · cases rest
    exact ⟨proper, Table.proper_empty _ _⟩
  · next tableSpan entries implied =>
    -- The entries move from the closed part to the open table, and both stay proper.
    obtain ⟨parent, at_, found⟩ := Option.bind_eq_some_iff.mp implied
    obtain ⟨erased, erasing, rest⟩ := Option.bind_eq_some_iff.mp rest
    cases rest
    have taken : Table.Proper ⟨tableSpan, .implied, entries⟩ := (proper.at? at_).of_find? found
    exact ⟨proper.alter (by rintro _ _ hi ⟨⟩; exact hi.erase) erasing, taken.of_entries rfl⟩
  · cases rest

theorem Proper.openListed (h : d.Proper) (opened : d.openListed path span = some d') :
    d'.Proper := by
  obtain ⟨closed, closing, rest⟩ := Option.bind_eq_some_iff.mp opened
  obtain ⟨reached, reaching, rest⟩ := Option.bind_eq_some_iff.mp rest
  cases rest
  refine ⟨(h.close closing).alter (fun parent parent' proper changed => ?_) reaching,
    Table.proper_empty _ _⟩
  split at changed <;> cases changed
  · next new => exact proper.append new (.list _ _ (by simp))
  · exact proper

theorem Proper.add (h : d.Proper) (proper : i.Proper) (added : d.add path i = some d') :
    d'.Proper := by
  obtain ⟨current, adding, rest⟩ := Option.bind_eq_some_iff.mp added
  cases rest
  let grown : Table := { d.current with span := (cover d.current.span i.span).or d.current.span }
  have hgrown : grown.Proper := h.current.of_entries rfl
  exact ⟨h.closed, hgrown.addDotted proper adding⟩

end Draft

theorem yields_step {d : Option Draft} (h : ∀ d' ∈ d, d'.Proper) :
    Yields Draft.Proper (step d) := by
  cases d with
  | none => exact yields_refuse
  | some d => exact yields_pure (h d rfl)

theorem yields_header {d : Draft} (h : d.Proper) : Yields Draft.Proper (header d) := by
  refine yields_bind fun ahead => yields_bind fun path => yields_bind fun _ => yields_step ?_
  intro d' opened
  split at opened
  · exact h.openListed opened
  · exact h.openTable opened

theorem yields_line {d : Draft} (h : d.Proper) : Yields Draft.Proper (line d) := by
  refine yields_bind fun _ => yields_bind fun next => ?_
  split
  · exact yields_pure h
  · exact yields_bind fun _ => yields_pure h
  · exact yields_bind fun _ => yields_pure h
  · exact yields_bind fun _ => yields_pure h
  · exact yields_header h
  · refine (yields_keyValue (yields_value _)).bind fun p hp => yields_bind fun _ => ?_
    exact yields_step fun d' added => h.add hp added

theorem yields_lines {d : Draft} (h : d.Proper) (fuel : Nat) :
    Yields Draft.Proper (lines fuel d) := by
  induction fuel generalizing d with
  | zero =>
    refine yields_bind fun done => ?_
    split
    · exact yields_pure h
    · exact yields_refuse
  | succ fuel ih =>
    refine yields_bind fun done => ?_
    split
    · exact yields_pure h
    · exact (yields_line h).bind fun d' hd => ih hd

/-- No table of a document has a key twice. -/
theorem Table.proper_of_ofText? {source : String} {t : Table} (read : ofText? source = some t) :
    t.Proper := by
  obtain ⟨⟨draft, rest⟩, reading, closing⟩ := Option.bind_eq_some_iff.mp read
  obtain ⟨table, closing, out⟩ := Option.bind_eq_some_iff.mp closing
  cases out
  have drafted : draft.Proper := by
    refine Yields.bind (P := fun _ => True) (Q := Draft.Proper) (yields_any _) (fun _ _ => ?_)
      _ _ _ reading
    exact yields_bind fun rest => yields_lines Draft.proper_start _
  exact drafted.close closing

end FpgaProject.Toml
