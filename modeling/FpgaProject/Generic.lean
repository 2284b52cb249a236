import FpgaProject.Toml.Decode

/-!
Generics of a top level entity.

Bindings keep the order in which their names first came; binding a name again changes its value and
not its place. Main statements: `names_set` says what a binding does to the names, and
`find?_set` what it does to the values.
-/

namespace FpgaProject

/-- A value bound to a generic. A text is passed on as it is, so a vector is written by the caller
in the form that the tool reads. -/
inductive GenericValue where
  | boolean (b : Bool)
  | integer (n : Int)
  | real (x : Binary64)
  | text (s : String)
deriving DecidableEq, Repr

namespace GenericValue

/-- The form that the tool reads; a truth value is a literal of one bit. -/
def rendered : GenericValue → String
  | .boolean b => if b then "1'b1" else "1'b0"
  | .integer n => toString n
  | .real x => x.text
  | .text s => s

def toItem : GenericValue → Toml.Item
  | .boolean b => .ofScalar (.boolean b)
  | .integer n => .ofScalar (.integer n)
  | .real x => .ofScalar (.real x)
  | .text s => .ofScalar (.string s)

/-- Reads a value; dates, lists and tables are none. -/
def ofItem : Toml.Item → Except Toml.Misfit GenericValue
  | .scalar _ (.boolean b) => .ok (.boolean b)
  | .scalar _ (.integer n) => .ok (.integer n)
  | .scalar _ (.real x) => .ok (.real x)
  | .scalar _ (.string s) => .ok (.text s)
  | _ => .error ⟨.noGeneric, none⟩

end GenericValue

/-- Names bound to values, no name twice, in the order in which the names first came. -/
structure Generics where
  bindings : List (String × GenericValue)
  distinct : (bindings.map Prod.fst).Nodup
deriving DecidableEq, Repr

namespace Generics

def empty : Generics :=
  ⟨[], by simp⟩

def names (g : Generics) : List String :=
  g.bindings.map Prod.fst

def find? (g : Generics) (name : String) : Option GenericValue :=
  g.bindings.lookup name

def changeValue (name : String) (value : GenericValue) (bs : List (String × GenericValue)) :
    List (String × GenericValue) :=
  bs.map fun b => if b.1 = name then (name, value) else b

theorem map_fst_changeValue (name : String) (value : GenericValue)
    (bs : List (String × GenericValue)) :
    (changeValue name value bs).map Prod.fst = bs.map Prod.fst := by
  induction bs with
  | nil => rfl
  | cons b bs ih =>
    simp only [changeValue, List.map_cons] at ih ⊢
    rw [ih]
    split <;> simp_all

def set (g : Generics) (name : String) (value : GenericValue) : Generics :=
  if h : name ∈ g.bindings.map Prod.fst then
    ⟨changeValue name value g.bindings, by
      rw [map_fst_changeValue]
      exact g.distinct⟩
  else
    ⟨g.bindings ++ [(name, value)], by
      rw [List.map_append, List.nodup_append]
      refine ⟨g.distinct, by simp, ?_⟩
      intro a ha b hb e
      simp only [List.map_cons, List.map_nil, List.mem_singleton] at hb
      subst e hb
      exact h ha⟩

def ofList (bs : List (String × GenericValue)) : Generics :=
  bs.foldl (fun g b => g.set b.1 b.2) empty

def size (g : Generics) : Nat :=
  g.bindings.length

def isEmpty (g : Generics) : Bool :=
  g.bindings.isEmpty

/-- The bindings in the form `name=value`, with blanks between them. -/
def tclList (g : Generics) : String :=
  " ".intercalate (g.bindings.map fun b => b.1 ++ "=" ++ b.2.rendered)

def toItem (g : Generics) : Toml.Item :=
  .ofEntries (g.bindings.map fun b => (b.1, b.2.toItem))

/-- Reads the bindings from a table. -/
def ofItem (i : Toml.Item) : Except Toml.Misfit Generics :=
  (i.asMap GenericValue.ofItem).map ofList

/-! ### What a binding does -/

/-- A new name comes last; a bound one keeps its place. -/
theorem names_set (g : Generics) (name : String) (value : GenericValue) :
    (g.set name value).names = if name ∈ g.names then g.names else g.names ++ [name] := by
  unfold set names
  split <;> simp [map_fst_changeValue]

theorem lookup_changeValue (name m : String) (value : GenericValue)
    (bs : List (String × GenericValue)) :
    (changeValue name value bs).lookup m =
      if m = name ∧ name ∈ bs.map Prod.fst then some value else bs.lookup m := by
  induction bs with
  | nil => simp [changeValue]
  | cons b bs ih =>
    obtain ⟨k, v⟩ := b
    simp only [changeValue, List.map_cons] at ih ⊢
    by_cases hk : k = name
    · subst hk
      by_cases hm : m = k
      · simp [hm]
      · have : (m == k) = false := by simp [hm]
        simp [List.lookup_cons, this, hm, ih]
    · by_cases hm : m = k
      · subst hm
        simp [hk]
      · have : (m == k) = false := by simp [hm]
        simp only [hk, if_false, List.lookup_cons, this, ih]
        have hmem : name ∈ k :: bs.map Prod.fst ↔ name ∈ bs.map Prod.fst := by
          simp [Ne.symm hk]
        simp only [hmem]

/-- A binding changes the value of its name alone. -/
theorem find?_set (g : Generics) (name m : String) (value : GenericValue) :
    (g.set name value).find? m = if m = name then some value else g.find? m := by
  unfold set find?
  split
  · rename_i h
    rw [lookup_changeValue]
    by_cases hm : m = name <;> simp_all
  · rename_i h
    simp only [List.lookup_append]
    by_cases hm : m = name
    · subst hm
      have : g.bindings.lookup m = none := by
        rw [List.lookup_eq_none_iff]
        intro b hb
        simp only [bne_iff_ne, ne_eq]
        rintro rfl
        exact h (List.mem_map_of_mem hb)
      simp [this]
    · have : (m == name) = false := by simp [hm]
      simp [hm, List.lookup_cons, this]

end Generics

end FpgaProject
