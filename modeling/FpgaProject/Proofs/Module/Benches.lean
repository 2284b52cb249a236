import FpgaProject.Module

/-!
Setting up test benches.

A context may refuse a configuration for what it has taken before. So the configurations that are
asked for are handed to it one after another, and none behind one that is refused (`HandsOver`).
What is said tells which were handed over, and a context that keeps a record
(`BenchContext.recorded`) which of them were taken. Main statement: `benches_handed_over`.
-/

namespace FpgaProject

namespace Module

variable {σ : Type}

/-- The context, with a record of what it has taken beside its own state. -/
def BenchContext.recorded (context : BenchContext σ) : BenchContext (σ × List BenchConfig) :=
  fun s b => (context s.1 b).map fun next => (next, s.2 ++ [b])

/-- What comes of handing configurations to a context, with those that are handed over and those
that are taken: all of them, and the context takes each; or those up to the first one that is
refused, and the error is the one with which it is refused. -/
inductive HandsOver (context : BenchContext σ) (s : σ) (wanted : List BenchConfig) :
    List BenchConfig → List BenchConfig → σ → Except Error Unit → Prop where
  | all {final : σ} : wanted.foldlM context s = .ok final →
      HandsOver context s wanted wanted wanted final (.ok ())
  | refused {taken rest : List BenchConfig} {b : BenchConfig} {final : σ} {e : Error} :
      wanted = taken ++ b :: rest → taken.foldlM context s = .ok final →
      context final b = .error e →
      HandsOver context s wanted (taken ++ [b]) taken final (.error e)

section

variable {context : BenchContext σ} {s next final : σ} {b : BenchConfig}
  {wanted made taken : List BenchConfig} {result : Except Error Unit}

theorem foldlM_cons_of_ok (took : context s b = .ok next) (bs : List BenchConfig) :
    (b :: bs).foldlM context s = bs.foldlM context next := by
  rw [List.foldlM_cons, took]
  rfl

/-- A configuration that is taken comes before what is handed over after it. -/
theorem HandsOver.cons (took : context s b = .ok next)
    (rest : HandsOver context next wanted made taken final result) :
    HandsOver context s (b :: wanted) (b :: made) (b :: taken) final result := by
  cases rest with
  | all each => exact .all ((foldlM_cons_of_ok took wanted).trans each)
  | refused split each refusal =>
    exact .refused (congrArg (b :: ·) split) ((foldlM_cons_of_ok took _).trans each) refusal

theorem HandsOver.isPrefix (done : HandsOver context s wanted made taken final result) :
    made <+: wanted := by
  cases done with
  | all => exact List.prefix_rfl
  | @refused taken rest b final e split =>
    exact ⟨rest, by rw [split, List.append_assoc, List.singleton_append]⟩

end

/-- What is said of a configuration that is handed over. -/
def said (modul : String) (b : BenchConfig) : Event :=
  .benchAdded modul b.config b.name

/-- Handing over configurations stops at the first one that is refused, and says which they are. A
record of what is taken changes nothing. -/
theorem exists_handsOver (modul : String) (context : BenchContext σ) (s : σ)
    (bs : List BenchConfig) :
    let outcome := handOver modul context s bs
    ∃ made taken, HandsOver context s bs made taken outcome.1 outcome.2.result ∧
      outcome.2.events = made.map (said modul) ∧
      ∀ before, handOver modul context.recorded (s, before) bs =
        ((outcome.1, before ++ taken), outcome.2) := by
  induction bs generalizing s with
  | nil => exact ⟨[], [], .all rfl, rfl, fun before => by simp [handOver]⟩
  | cons b bs ih =>
    cases took : context s b with
    | error e =>
      refine ⟨[b], [], ?_, ?_, fun before => ?_⟩
      · have refused : HandsOver context s (b :: bs) ([] ++ [b]) [] s (.error e) :=
          .refused rfl rfl took
        simpa [handOver, took] using refused
      · simp [handOver, took, said]
      · simp [handOver, BenchContext.recorded, took, Except.map]
    | ok next =>
      obtain ⟨made, taken, done, events, recorded⟩ := ih next
      refine ⟨b :: made, b :: taken, ?_, ?_, fun before => ?_⟩
      · simpa [handOver, took, Report.after] using done.cons took
      · simp [handOver, took, Report.after, events, said]
      · simp [handOver, BenchContext.recorded, took, Except.map, recorded, Report.after]

/-! ### What is asked for -/

/-- The option leaves the configurations of the test bench that it names, in their order. -/
theorem wantedBenches_eq (m : Module) (options : BenchOptions) :
    m.wantedBenches options =
      m.benches.filter fun b => ∀ only ∈ options.lookup "bench", b.name = only := by
  unfold wantedBenches benchOption
  cases options.lookup "bench" with
  | none => exact (List.filter_eq_self.mpr fun b _ => by simp).symm
  | some only => simp

/-- Other options do not count. -/
theorem wantedBenches_filter (m : Module) (options : BenchOptions) :
    m.wantedBenches (options.filter (·.1 = "bench")) = m.wantedBenches options := by
  have same := Disk.lookup_filter (fun key => decide (key = "bench")) "bench" options
  rw [wantedBenches_eq, wantedBenches_eq, same]
  simp

/-! ### Main statement -/

/-- To set up the test benches of a module is to hand the configurations that are asked for to the
context, in the order in which they stand in the module, each once, until one is refused. A plain
module hands over nothing. -/
theorem benches_handed_over (m : Module) (options : BenchOptions) (context : BenchContext σ)
    (s : σ) :
    let wanted := m.benches.filter fun b => ∀ only ∈ options.lookup "bench", b.name = only
    let outcome := m.configureBenches context options s
    (∃ made taken, HandsOver context s wanted made taken outcome.1 outcome.2.result ∧
      made <+: wanted ∧
      outcome.2.events = made.map (fun b => .benchAdded m.name b.config b.name) ∧
      ∀ before, m.configureBenches context.recorded options (s, before) =
        ((outcome.1, before ++ taken), outcome.2)) ∧
    m.configureBenches context (options.filter (·.1 = "bench")) s = outcome ∧
    ∀ path librarySuffix,
      (plain path librarySuffix).configureBenches context options s = (s, pure ()) := by
  intro wanted outcome
  refine ⟨?handed, ?others, fun path librarySuffix => ?plain⟩
  case handed =>
    obtain ⟨made, taken, done, events, recorded⟩ :=
      exists_handsOver m.name context s (m.wantedBenches options)
    rw [show wanted = m.wantedBenches options from (m.wantedBenches_eq options).symm]
    exact ⟨made, taken, done, done.isPrefix, events, recorded⟩
  case others =>
    rw [configureBenches, wantedBenches_filter]
    rfl
  case plain =>
    rw [configureBenches, wantedBenches_eq]
    rfl

/-- A context with room for one configuration refuses the second of the two that are asked for. -/
example :
    let m : Module := ⟨⟨"/m"⟩, false,
      [⟨"tb", "narrow", .empty⟩, ⟨"other", "c", .empty⟩, ⟨"tb", "wide", .empty⟩]⟩
    let context : BenchContext (List String) := fun taken b =>
      if taken = [] then .ok [b.config] else .error (.other "full")
    let outcome := m.configureBenches context [("bench", "tb")] []
    outcome.1 = ["narrow"] ∧ outcome.2.result = .error (.other "full") := by
  exact ⟨rfl, rfl⟩

end Module

end FpgaProject
