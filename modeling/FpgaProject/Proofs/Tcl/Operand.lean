import FpgaProject.Proofs.Tcl.Words

/-!
Paths in their places in a script.

An operand is a path as a word, or paths in braces as a list. It is read as it should be,
`Operand.Reads`, if the reader comes to it between words, takes it as one word with the right value,
and the value of a list has the paths as its elements. By `Operand.reads_iff` that only depends on
where the reader stands and on the characters of the paths. A slot is an operand with the text around
it, and `Slot.reach_text` says that an operand that is read as it should be leaves no trace: the
reader is then where any other operand would have left it.
-/

namespace FpgaProject.Tcl

/-! ### Where a text leads -/

/-- What is being read behind a text of a script. -/
def reach (k : Control) (s : List Char) : Control :=
  (run script k s).2

theorem reach_append (k : Control) (s t : List Char) :
    reach k (s ++ t) = reach (reach k s) t := by
  simp [reach, run_append]

/-! ### Operands -/

/-- What stands for paths in a command. -/
inductive Operand where
  | path (t : List Char)
  | paths (ts : List (List Char))
deriving DecidableEq, Repr

namespace Operand

/-- The value that the word of an operand should have. -/
def value : Operand → List Char
  | path t => t
  | paths ts => Text.joinWith ' ' ts

def text : Operand → List Char
  | path t => t
  | paths ts => '\x7b' :: (Text.joinWith ' ' ts ++ ['\x7d'])

def all : Operand → List (List Char)
  | path t => [t]
  | paths ts => ts

/-- The value of a list has the paths as its elements. -/
def ListsPaths : Operand → Prop
  | path _ => True
  | paths ts => Elements ts

/-- In front of a character that ends a word there, an operand is read as one word that has its
value, and a list has the right elements. -/
def Reads (o : Operand) (k : Control) (behind : Char) : Prop :=
  (∃ begun, k.current = .between begun) ∧
    (∃ r, separate? script k.stack true behind = some r ∧
      run script k (o.text ++ [behind]) = (.word (.literal o.value) :: r.1, r.2)) ∧
    o.ListsPaths

/-- No character of a path ends its word, inside brackets if it is nested, or starts a substitution;
and the braces of a list are balanced. -/
def fits (nested : Bool) : Operand → Bool
  | path t => clean script nested t
  | paths ts => balanced 0 (Text.joinWith ' ' ts) && ts.all (clean list false)

/-- The reader stands between words, the character behind ends a word there, and the operand fits. -/
def Accepted (o : Operand) (k : Control) (behind : Char) : Prop :=
  (∃ begun, k.current = .between begun) ∧
    (separate? script k.stack true behind).isSome = true ∧ o.fits (!k.stack.isEmpty) = true

end Operand

/-- No separator can be part of the name of a variable. -/
theorem startsVariable_of_separate? {stack : List Current} {c : Char}
    {r : List Event × Control} (parts : separate? script stack true c = some r) :
    startsVariable [c] = false := by
  have parting : (script.blank c || script.ends c || (!stack.isEmpty && c = ']')) = true := by
    rw [← Bool.not_eq_false, ← separate?_eq_none_iff, parts]
    exact Option.some_ne_none r
  simp only [script, isSpace, Bool.or_eq_true, Bool.and_eq_true, decide_eq_true_eq] at parting
  rcases parting with ((((((rfl | rfl) | rfl) | rfl) | rfl) | (rfl | rfl)) | ⟨-, rfl⟩) <;> decide

/-- A text without backslashes in its pieces holds none. -/
theorem free_joinWith {ts : List (List Char)} (paths : ∀ t ∈ ts, PathText t) :
    '\\' ∉ Text.joinWith ' ' ts := by
  intro member
  rcases Text.mem_joinWith member with blank | ⟨t, ht, inside⟩
  · exact absurd blank (by decide)
  · exact (paths t ht).free inside

/-- An operand of paths is read as it should be exactly if it is accepted. -/
theorem Operand.reads_iff {o : Operand} (paths : ∀ t ∈ o.all, PathText t) (k : Control)
    (behind : Char) : o.Reads k behind ↔ o.Accepted k behind := by
  obtain ⟨stack, current⟩ := k
  refine and_congr_right fun between => ?_
  obtain ⟨begun, rfl⟩ := between
  cases parts : separate? script stack true behind with
  | none => simp
  | some r =>
    have after := startsVariable_of_separate? parts
    cases o with
    | path t =>
      have word : run script ⟨stack, .between begun⟩ (t ++ [behind]) =
          (.word (.literal t) :: r.1, r.2) ↔ clean script (!stack.isEmpty) t = true :=
        run_path_iff parts after (paths t (List.mem_singleton_self t))
      simpa [text, value, fits, ListsPaths] using word
    | paths ts =>
      have word : run script ⟨stack, .between begun⟩
            ('\x7b' :: Text.joinWith ' ' ts ++ ['\x7d', behind]) =
          (.word (.literal (Text.joinWith ' ' ts)) :: r.1, r.2) ↔
            balanced 0 (Text.joinWith ' ' ts) = true :=
        run_braced_iff parts (free_joinWith paths)
      have elements : Elements ts ↔ ∀ t ∈ ts, clean list false t = true := elements_iff paths
      simpa [text, value, fits, ListsPaths, elements] using and_congr_left fun _ => word

/-! ### Slots -/

/-- An operand in a command: the text in front of it, the character that ends its word, and the text
behind that. -/
structure Slot where
  front : List Char
  operand : Operand
  behind : Char
  rest : List Char

namespace Slot

def text (s : Slot) : List Char :=
  s.front ++ s.operand.text ++ s.behind :: s.rest

/-- The operand is read as it should be if the slot is read from here. -/
def Reads (s : Slot) (k : Control) : Prop :=
  s.operand.Reads (reach k s.front) s.behind

/-- The operand is accepted where the text in front of it leads. -/
def Accepted (s : Slot) (k : Control) : Prop :=
  s.operand.Accepted (reach k s.front) s.behind

/-- What is being read behind a slot whose operand is one word. -/
def after (s : Slot) (k : Control) : Control :=
  reach (next script ⟨(reach k s.front).stack, .between true⟩ s.behind).2 s.rest

theorem reads_iff {s : Slot} (paths : ∀ t ∈ s.operand.all, PathText t) (k : Control) :
    s.Reads k ↔ s.Accepted k :=
  s.operand.reads_iff paths _ s.behind

/-- An operand that is read as it should be leaves no trace. -/
theorem reach_text {s : Slot} {k : Control} (reads : s.Reads k) :
    reach k s.text = s.after k := by
  obtain ⟨-, ⟨r, parts, word⟩, -⟩ := reads
  have ended : next script ⟨(reach k s.front).stack, .between true⟩ s.behind = r := by
    simp [next, parts]
  have shape : s.text = s.front ++ ((s.operand.text ++ [s.behind]) ++ s.rest) := by
    simp [text]
  have read : reach (reach k s.front) (s.operand.text ++ [s.behind]) = r.2 :=
    congrArg (fun result => result.2) word
  rw [shape, reach_append, reach_append, read, after, ended]

end Slot

end FpgaProject.Tcl
