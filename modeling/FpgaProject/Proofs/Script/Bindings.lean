import Mathlib.Data.Finset.Card
import Mathlib.Data.List.Dedup
import Mathlib.Data.List.Induction
import FpgaProject.Proofs.Script.Recovery
import FpgaProject.Proofs.Script.Starting

/-!
Generics that are bound one after another.

A name stands where it was bound first and has the value that it was bound to last: that is what one
more binding preserves (`Collects.set`), and so what any number of them comes to
(`collects_ofList`). The list of the bindings can be read word by word, as long as no blank stands
in it and no name holds the sign that parts it from its value. Main statement: `bindings_ordered`.
-/

namespace FpgaProject

namespace Generics

/-! ### Names and values -/

variable {g : Generics} {name : String} {value : GenericValue}

/-- With no name twice, the value of a name is the one it is bound to. -/
theorem find?_eq_some_iff : g.find? name = some value ↔ (name, value) ∈ g.bindings := by
  obtain ⟨bindings, distinct⟩ := g
  unfold find?
  dsimp only
  induction bindings with
  | nil => simp
  | cons b bs ih =>
    obtain ⟨key, bound⟩ := b
    rw [List.map_cons, List.nodup_cons] at distinct
    rw [List.lookup_cons]
    by_cases same : name = key
    · subst same
      have later : (name, value) ∉ bs := by
        intro member
        exact distinct.1 (List.mem_map.mpr ⟨_, member, rfl⟩)
      simp [later, eq_comm]
    · have other : (name == key) = false := by simpa using same
      simp [other, ih distinct.2, same]

/-- A binding changes what its name is bound to and nothing else. -/
theorem mem_bindings_set_iff {other : String} {bound : GenericValue} :
    (other, bound) ∈ (g.set name value).bindings ↔
      if other = name then bound = value else (other, bound) ∈ g.bindings := by
  rw [← find?_eq_some_iff, find?_set]
  split
  · exact ⟨fun same => (Option.some.inj same).symm, fun same => congrArg some same.symm⟩
  · exact find?_eq_some_iff

/-! ### What bindings come to -/

/-- A value is the one that a name is bound to last. -/
def BoundLast (calls : List (String × GenericValue)) (name : String)
    (value : GenericValue) : Prop :=
  ∃ before after, calls = before ++ (name, value) :: after ∧ name ∉ after.map Prod.fst

/-- Of what comes last, only the value of its name is another one. -/
theorem boundLast_append_iff {calls : List (String × GenericValue)} {c : String × GenericValue} :
    BoundLast (calls ++ [c]) name value ↔
      if name = c.1 then value = c.2 else BoundLast calls name value := by
  constructor
  · rintro ⟨before, after, split, last⟩
    cases after using List.reverseRecOn with
    | nil =>
      obtain ⟨-, ends⟩ := List.append_inj' split rfl
      obtain rfl : c = (name, value) := by simpa using ends
      rw [if_pos rfl]
    | append_singleton after c' =>
      rw [← List.cons_append, ← List.append_assoc] at split
      obtain ⟨rfl, ends⟩ := List.append_inj' split rfl
      obtain rfl : c = c' := by simpa using ends
      rw [List.map_append, List.mem_append, not_or] at last
      have other : name ≠ c.1 := by simpa using last.2
      rw [if_neg other]
      exact ⟨before, after, rfl, last.1⟩
  · split
    · rename_i same
      rintro rfl
      exact ⟨calls, [], by rw [same], by simp⟩
    · rename_i other
      rintro ⟨before, after, rfl, last⟩
      refine ⟨before, after ++ [c], by simp, ?_⟩
      rw [List.map_append, List.mem_append, not_or]
      exact ⟨last, by simpa using other⟩

/-- Generics are what bindings one after another have come to. -/
structure Collects (g : Generics) (calls : List (String × GenericValue)) : Prop where
  /-- The names are those that were bound. -/
  named : ∀ name, name ∈ g.names ↔ name ∈ calls.map Prod.fst
  /-- They come in the order in which they were bound first. -/
  ordered : g.names.Pairwise fun a b =>
    (calls.map Prod.fst).idxOf a < (calls.map Prod.fst).idxOf b
  /-- Each has the value that it was bound to last. -/
  bound : ∀ name value, (name, value) ∈ g.bindings ↔ BoundLast calls name value

theorem collects_empty : empty.Collects [] where
  named := by simp [names, empty]
  ordered := .nil
  bound := by simp [empty, BoundLast]

variable {calls : List (String × GenericValue)}

/-- One more binding is collected. -/
theorem Collects.set (collects : g.Collects calls) (name : String) (value : GenericValue) :
    (g.set name value).Collects (calls ++ [(name, value)]) := by
  have earlier : ∀ a, a ∈ calls.map Prod.fst →
      ((calls ++ [(name, value)]).map Prod.fst).idxOf a = (calls.map Prod.fst).idxOf a := by
    intro a member
    rw [List.map_append, List.idxOf_append_of_mem member]
  have kept : g.names.Pairwise fun a b => ((calls ++ [(name, value)]).map Prod.fst).idxOf a <
      ((calls ++ [(name, value)]).map Prod.fst).idxOf b := by
    refine collects.ordered.imp_of_mem fun {a b} first second before => ?_
    rwa [earlier a ((collects.named a).mp first), earlier b ((collects.named b).mp second)]
  refine ⟨fun other => ?named, ?ordered, fun other bound => ?bound⟩
  case named =>
    rw [names_set, List.map_append, List.mem_append, ← collects.named]
    by_cases known : name ∈ g.names
    · rw [if_pos known]
      constructor
      · exact .inl
      · rintro (old | new)
        · exact old
        · rwa [List.mem_singleton.mp new]
    · rw [if_neg known, List.mem_append]
      rfl
  case ordered =>
    rw [names_set]
    by_cases known : name ∈ g.names
    · rwa [if_pos known]
    · rw [if_neg known, List.pairwise_append]
      refine ⟨kept, List.pairwise_singleton _ _, fun a old b new => ?_⟩
      obtain rfl := List.mem_singleton.mp new
      have before := (collects.named a).mp old
      have fresh : b ∉ calls.map Prod.fst := mt (collects.named b).mpr known
      rw [earlier a before, List.map_append, List.idxOf_append_of_notMem fresh]
      exact Nat.lt_add_right _ (List.idxOf_lt_length_of_mem before)
  case bound => rw [mem_bindings_set_iff, boundLast_append_iff, collects.bound]

/-- Any number of bindings is collected. -/
theorem collects_ofList (calls : List (String × GenericValue)) : (ofList calls).Collects calls := by
  induction calls using List.reverseRecOn with
  | nil => exact collects_empty
  | append_singleton calls c ih =>
    rw [ofList, List.foldl_append]
    exact ih.set c.1 c.2

/-- There are as many bindings as different names. -/
theorem Collects.size_eq (collects : g.Collects calls) :
    g.size = (calls.map Prod.fst).toFinset.card := by
  have same : g.names.toFinset = (calls.map Prod.fst).toFinset := by
    ext name
    rw [List.mem_toFinset, List.mem_toFinset, collects.named]
  have distinct : g.names.Nodup := g.distinct
  rw [← same, List.toFinset_card_of_nodup distinct, names, List.length_map, size]

theorem Collects.bindings_eq_nil_iff (collects : g.Collects calls) :
    g.bindings = [] ↔ calls = [] := by
  constructor
  · intro none
    cases calls with
    | nil => rfl
    | cons c calls =>
      have member := (collects.named c.1).mpr (by simp)
      simp [names, none] at member
  · rintro rfl
    cases bound : g.bindings with
    | nil => rfl
    | cons b bs =>
      have member : b.1 ∈ g.names := by simp [names, bound]
      exact absurd ((collects.named b.1).mp member) (by simp)

/-! ### The list of the bindings -/

def bindingText (b : String × GenericValue) : String :=
  b.1 ++ "=" ++ b.2.rendered

theorem tclList_eq (g : Generics) : g.tclList = " ".intercalate (g.bindings.map bindingText) := rfl

theorem bindingText_ne (b : String × GenericValue) : (bindingText b).toList ≠ [] := by
  simp [bindingText]

/-- The list is empty only if nothing is bound: what stands for a binding is never empty. -/
theorem tclList_eq_empty_iff : g.tclList = "" ↔ g.bindings = [] := by
  constructor
  · intro empty
    cases bound : g.bindings with
    | nil => rfl
    | cons b bs =>
      have front : Text.joinWith ' ' [(bindingText b).toList] <+: g.tclList.toList := by
        rw [tclList_eq, Script.toList_intercalate_blank, bound]
        apply Text.prefix_joinWith
        simp
      rw [empty] at front
      exact absurd (List.prefix_nil.mp front) (bindingText_ne b)
  · intro none
    rw [tclList_eq, none]
    rfl

/-- No blank stands in the bindings, and no name holds the sign that parts it from its value. -/
def Parted (g : Generics) : Prop :=
  ∀ b ∈ g.bindings, ' ' ∉ b.1.toList ∧ '=' ∉ b.1.toList ∧ ' ' ∉ b.2.rendered.toList

/-- The words of a list that are not empty, read as bindings. -/
def readList (list : String) : List (String × String) :=
  ((Script.words list.toList).filter (· ≠ [])).map fun word =>
    Script.readBinding (String.ofList word)

/-- Read word by word, the list gives its bindings back. -/
theorem readList_tclList (parted : g.Parted) :
    readList g.tclList = g.bindings.map fun b => (b.1, b.2.rendered) := by
  by_cases none : g.bindings = []
  · rw [tclList_eq_empty_iff.mpr none, none]
    rfl
  · have free : ∀ w ∈ g.bindings.map bindingText, ' ' ∉ w.toList := by
      intro w member
      obtain ⟨b, bound, rfl⟩ := List.mem_map.mp member
      obtain ⟨name, -, value⟩ := parted b bound
      simp [bindingText, name, value]
    have filled : ∀ word ∈ (g.bindings.map bindingText).map String.toList, word ≠ [] := by
      intro word member
      obtain ⟨w, listed, rfl⟩ := List.mem_map.mp member
      obtain ⟨b, -, rfl⟩ := List.mem_map.mp listed
      exact bindingText_ne b
    have words : Script.words g.tclList.toList = (g.bindings.map bindingText).map String.toList :=
      Script.words_intercalate (by simpa using none) free
    rw [readList, words, List.filter_eq_self.mpr (by simpa using filled), List.map_map,
      List.map_map]
    refine List.map_congr_left fun b bound => ?_
    obtain ⟨-, sign, -⟩ := parted b bound
    simp only [Function.comp_apply, String.ofList_toList]
    exact Script.readBinding_eq sign _

end Generics

/-- Names that are bound one after another are held once each, in the order of their first bindings,
with the values of their last ones. There are as many bindings as different names, and the list of
them is empty only if there was no binding. As long as no blank stands in it, and no name holds the
sign that parts it from its value, its words give the bindings back. A script of creation, which
there is unless a path of the design is empty, has one line that sets generics, with that list, if
there was a binding, and otherwise none. -/
theorem bindings_ordered (calls : List (String × GenericValue)) :
    (Generics.ofList calls).Collects calls ∧
    (Generics.ofList calls).size = (calls.map Prod.fst).toFinset.card ∧
    ((Generics.ofList calls).tclList = "" ↔ calls = []) ∧
    ((Generics.ofList calls).Parted → Generics.readList (Generics.ofList calls).tclList =
      (Generics.ofList calls).bindings.map fun b => (b.1, b.2.rendered)) ∧
    ∀ (x : Design) (d : Disk) (folder : Path),
      let bound : Design := { x with generics := Generics.ofList calls }
      (bound.HasEmptyPath ∧ bound.creation d folder = .error (.fault .emptyPath)) ∨
      ∃ commands, bound.creation d folder = .ok commands ∧
        Script.linesStarting "set_property generic " commands =
          (if calls = [] then []
          else ["set_property generic \x7b" ++ (Generics.ofList calls).tclList ++
            "\x7d [current_fileset]"]) ∧
        ((∀ c ∈ commands, ∀ t ∈ c.operands, Script.OneLine t) →
          (Text.splitAt '\n' (Script.text commands).toList).filter
              (Script.startsWith "set_property generic ") =
            (Script.linesStarting "set_property generic " commands).map String.toList) := by
  have collects := Generics.collects_ofList calls
  have none := collects.bindings_eq_nil_iff
  refine ⟨collects, collects.size_eq, Generics.tclList_eq_empty_iff.trans none,
    Generics.readList_tclList, ?_⟩
  intro x d folder bound
  cases made : bound.creation d folder with
  | error e =>
    obtain ⟨empty, rfl⟩ := Design.creation_eq_error_iff.mp made
    exact .inl ⟨empty, rfl⟩
  | ok commands =>
    have line := Design.linesStarting_creation_generics made
    have front : Script.genericsFront ++ "\x7b" = "set_property generic \x7b" := by decide
    simp only [bound, none, front] at line
    exact .inr ⟨commands, rfl, line, Script.filter_splitAt_text (by decide)⟩

/-- A name that is bound again keeps its place. -/
example : (Generics.ofList [("w", .integer 1), ("", .text ""), ("w", .integer 2)]).tclList =
    "w=2 =" := by
  decide

end FpgaProject
