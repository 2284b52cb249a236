import Mathlib.Data.List.Forall2

/-!
Steps that are taken one after another, each of which may fail.

They succeed together exactly if each of them does (`exists_mapM_eq_ok_iff`), with one result each
in their order (`mapM_eq_ok_iff`), and fail with the error of the first one that fails
(`mapM_eq_error_iff`).
-/

namespace FpgaProject

variable {α β ε : Type} {f : α → Except ε β}

theorem eq_ok_of_toOption {r : Except ε α} {a : α} (given : r.toOption = some a) : r = .ok a := by
  cases r with
  | error e => cases given
  | ok b => rw [Option.some.inj given]

/-- Steps that all succeed give one result each, in order. -/
theorem mapM_eq_ok_iff {xs : List α} {ys : List β} :
    xs.mapM f = .ok ys ↔ List.Forall₂ (fun x y => f x = .ok y) xs ys := by
  induction xs generalizing ys with
  | nil => cases ys <;> simp [pure, Except.pure]
  | cons x xs ih =>
    rw [List.mapM_cons]
    cases first : f x with
    | error e => cases ys <;> simp [bind, Except.bind, first]
    | ok y =>
      cases rest : xs.mapM f with
      | error e => cases ys <;> simp [bind, Except.bind, first, ← ih, rest]
      | ok zs => cases ys <;> simp [bind, Except.bind, pure, Except.pure, first, ← ih, rest]

theorem exists_of_mem_of_mapM_eq_ok {xs : List α} {ys : List β} (all : xs.mapM f = .ok ys) :
    ∀ x ∈ xs, ∃ y, f x = .ok y := by
  rw [mapM_eq_ok_iff] at all
  induction all with
  | nil => simp
  | cons first _ ih => exact List.forall_mem_cons.mpr ⟨⟨_, first⟩, ih⟩

/-- The results of steps that all succeed are each the result of one. -/
theorem exists_of_mem_of_mapM {xs : List α} {ys : List β} (all : xs.mapM f = .ok ys) :
    ∀ y ∈ ys, ∃ x ∈ xs, f x = .ok y := by
  rw [mapM_eq_ok_iff] at all
  induction all with
  | nil => simp
  | cons first _ ih =>
    refine List.forall_mem_cons.mpr ⟨⟨_, List.mem_cons_self, first⟩, fun y member => ?_⟩
    obtain ⟨x, there, step⟩ := ih y member
    exact ⟨x, List.mem_cons_of_mem _ there, step⟩

/-- Steps fail with the error of the first one that fails. -/
theorem mapM_eq_error_iff {xs : List α} {e : ε} :
    xs.mapM f = .error e ↔ ∃ before x after, xs = before ++ x :: after ∧
      (∀ b ∈ before, ∃ y, f b = .ok y) ∧ f x = .error e := by
  induction xs with
  | nil => simp [pure, Except.pure]
  | cons x xs ih =>
    rw [List.mapM_cons]
    constructor
    · intro failed
      cases first : f x with
      | error e' =>
        obtain rfl : e' = e := by simpa [first, bind, Except.bind] using failed
        exact ⟨[], x, xs, rfl, by simp, first⟩
      | ok y =>
        cases rest : xs.mapM f with
        | ok ys => simp [first, rest, bind, Except.bind, pure, Except.pure] at failed
        | error e' =>
          obtain rfl : e' = e := by simpa [first, rest, bind, Except.bind] using failed
          obtain ⟨before, z, after, rfl, passed, failed⟩ := ih.mp rest
          exact ⟨x :: before, z, after, rfl, by simpa [first] using passed, failed⟩
    · rintro ⟨before, z, after, split, passed, failed⟩
      cases before with
      | nil =>
        obtain ⟨rfl, -⟩ := List.cons.inj split
        simp [failed, bind, Except.bind]
      | cons b before =>
        obtain ⟨rfl, rfl⟩ := List.cons.inj split
        obtain ⟨y, first⟩ := passed x List.mem_cons_self
        have rest := ih.mpr ⟨before, z, after, rfl,
          fun b hb => passed b (List.mem_cons_of_mem _ hb), failed⟩
        simp only [List.append_eq] at rest ⊢
        rw [first, rest]
        rfl

/-- Steps succeed together exactly if each of them does. -/
theorem exists_mapM_eq_ok_iff {xs : List α} :
    (∃ ys, xs.mapM f = .ok ys) ↔ ∀ x ∈ xs, ∃ y, f x = .ok y := by
  constructor
  · rintro ⟨ys, all⟩
    exact exists_of_mem_of_mapM_eq_ok all
  · intro each
    cases outcome : xs.mapM f with
    | ok ys => exact ⟨ys, rfl⟩
    | error e =>
      obtain ⟨before, x, after, split, -, failed⟩ := mapM_eq_error_iff.mp outcome
      obtain ⟨y, ok⟩ := each x (by simp [split])
      rw [failed] at ok
      cases ok

/-- Steps that all succeed do so without some of them, and then give the results of the others. -/
theorem mapM_filter_eq_ok {xs : List α} {ys : List β} (all : xs.mapM f = .ok ys) (keep : α → Bool) :
    (xs.filter keep).mapM f = .ok (((xs.zip ys).filter fun pair => keep pair.1).map Prod.snd) := by
  rw [mapM_eq_ok_iff] at all ⊢
  induction all with
  | nil => exact .nil
  | @cons x y xs ys first _ ih =>
    cases kept : keep x with
    | true => simpa [kept, first] using ih
    | false => simpa [kept] using ih

/-- Steps that agree on each member of a list agree on the list. -/
theorem mapM_congr {m : Type → Type} [Monad m] [LawfulMonad m] {f g : α → m β} {xs : List α}
    (each : ∀ x ∈ xs, f x = g x) : xs.mapM f = xs.mapM g := by
  induction xs with
  | nil => rfl
  | cons x xs ih =>
    obtain ⟨first, rest⟩ := List.forall_mem_cons.mp each
    rw [List.mapM_cons, List.mapM_cons, first, ih rest]

end FpgaProject
