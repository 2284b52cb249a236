import FpgaProject.Proofs.Tcl.Reader
import FpgaProject.Proofs.Text.Pieces

/-!
When a text is one word.

A text that stands in front of a separator is read as one word with the text as its value exactly if
it is clean: no character of it ends the word or starts a substitution (`run_clean`,
`run_ne_of_unclean`, and for the text of a path `run_path_iff`). A text in braces is read as one word
with what stands in the braces as its value exactly if its braces are balanced (`run_braced_iff`),
and paths with blanks between them are the elements of a list exactly if each is clean by the rules
for lists (`elements_iff`). Texts with backslashes are left out.
-/

namespace FpgaProject.Tcl

variable {x : Rules} {k : Control} {stack : List Current}

/-! ### Words in which something was substituted -/

/-- Something was substituted in the word that is being read, so that it will have no value of its
own. -/
def Current.Impure : Current → Prop
  | .word _ _ pure | .escape _ _ pure | .dollar _ _ pure | .colon _ _ pure | .closed _ pure =>
    pure = false
  | .name _ | .bracedName _ | .index _ | .broken => True
  | _ => False

/-- What is completed first is no word with a value, and if nothing is completed, something was
substituted in what is being read. -/
def Spoils (r : List Event × Control) : Prop :=
  (∃ e rest, r.1 = e :: rest ∧ ∀ value, e ≠ .word (.literal value)) ∨
    (r.1 = [] ∧ r.2.current.Impure)

theorem spoils_reading {current : Current} (h : current.Impure) : Spoils (reading stack current) :=
  .inr ⟨rfl, h⟩

theorem spoils_within (style : Style) (value : List Char) (c : Char) :
    Spoils (within x stack style value false c) := by
  unfold within
  split
  · exact .inl ⟨.enter, [], rfl, by simp⟩
  · split
    · exact spoils_reading rfl
    · split <;> exact spoils_reading rfl

theorem spoils_finish {value : List Char} {c : Char} {r : List Event × Control}
    (h : finish? x stack value false c = some r) : Spoils r := by
  obtain ⟨separated, -, rfl⟩ := Option.map_eq_some_iff.mp h
  exact .inl ⟨.word .substituted, separated.1, rfl, by simp⟩

theorem spoils_proceed (style : Style) (value : List Char) (c : Char) :
    Spoils (proceed x stack style value false c) := by
  cases style with
  | bare =>
    rw [proceed]
    cases h : finish? x stack value false c with
    | none => exact spoils_within .bare value c
    | some r => exact spoils_finish h
  | quoted =>
    rw [proceed]
    split
    · exact spoils_reading rfl
    · exact spoils_within .quoted value c

/-- A word in which something was substituted is completed as such, or is read on. -/
theorem spoils_next (h : k.current.Impure) (c : Char) : Spoils (next x k c) := by
  obtain ⟨stack, current⟩ := k
  cases current with
  | word style value pure =>
    obtain rfl : pure = false := h
    exact spoils_proceed style value c
  | escape style value pure =>
    obtain rfl : pure = false := h
    simp only [next]
    split
    · exact .inl ⟨.word .substituted, [], rfl, by simp⟩
    · exact spoils_reading rfl
  | dollar style value pure =>
    obtain rfl : pure = false := h
    simp only [next]
    repeat' split
    all_goals first
      | exact spoils_reading trivial
      | exact spoils_reading rfl
      | exact spoils_proceed style _ c
  | colon style value pure =>
    obtain rfl : pure = false := h
    simp only [next]
    split
    · exact spoils_reading trivial
    · exact spoils_proceed style _ c
  | closed value pure =>
    obtain rfl : pure = false := h
    simp only [next]
    cases finished : finish? x stack value false c with
    | none => exact spoils_reading trivial
    | some r => exact spoils_finish finished
  | name style =>
    simp only [next]
    repeat' split
    all_goals first
      | exact spoils_reading trivial
      | exact spoils_reading rfl
      | exact spoils_proceed style _ c
  | bracedName style =>
    simp only [next]
    split <;> exact spoils_reading (by simp [Current.Impure])
  | index style =>
    simp only [next]
    split
    · exact .inl ⟨.enter, [], rfl, by simp⟩
    · split <;> exact spoils_reading (by simp [Current.Impure])
  | broken => exact spoils_reading trivial
  | between | gap | comment | braced | bracedEscape => exact absurd h id

/-- However it is read on, a word in which something was substituted does not come out as a word with
a value. -/
theorem run_ne_of_impure (h : k.current.Impure) (s : List Char) (value : List Char)
    (rest : List Event) (k' : Control) : run x k s ≠ (.word (.literal value) :: rest, k') := by
  induction s generalizing k with
  | nil => simp
  | cons c s ih =>
    intro eq
    obtain ⟨events, -⟩ := Prod.mk.inj eq
    rcases spoils_next (x := x) h c with ⟨e, after, first, none⟩ | ⟨quiet, impure⟩
    · rw [first, List.cons_append] at events
      exact none value (List.cons.inj events).1
    · exact ih impure (by rw [run, quiet] at eq; exact eq)

/-! ### Bare words -/

/-- Behind a dollar sign, the text is read as a variable. -/
def startsVariable : List Char → Bool
  | [] => false
  | c :: s => isNameChar c || c = '\x7b' || c = '(' || (c = ':' && s.head? = some ':')

/-- No character of the text ends a bare word, inside brackets if it is nested, or starts a
substitution. -/
def clean (x : Rules) (nested : Bool) : List Char → Bool
  | [] => true
  | c :: s =>
    !(x.blank c || x.ends c || (nested && c = ']')) &&
      !(x.substitutes && (c = '[' || (c = '$' && startsVariable s))) && clean x nested s

/-- What is clean in brackets is clean outside. -/
theorem clean_of_nested {t : List Char} (nested : clean x true t = true) :
    clean x false t = true := by
  induction t with
  | nil => rfl
  | cons c t ih => grind [clean]

/-- What parts words is a blank, an end of a command or, in brackets, the closing one. -/
theorem separate?_eq_none_iff {c : Char} :
    separate? x stack true c = none ↔
      (x.blank c || x.ends c || (!stack.isEmpty && c = ']')) = false := by
  cases stack <;> grind [separate?]

/-- A colon is part of a word. -/
theorem separate?_colon : separate? x stack true ':' = none := by
  rw [separate?_eq_none_iff, x.colon.1, x.colon.2]
  simp

theorem ne_colon_of_separate? {c : Char} {r : List Event × Control}
    (parts : separate? x stack true c = some r) : c ≠ ':' := by
  rintro rfl
  rw [separate?_colon] at parts
  cases parts

/-- A separator completes a word. -/
theorem next_separator {c : Char} {r : List Event × Control} {value : List Char}
    (parts : separate? x stack true c = some r) :
    next x ⟨stack, .word .bare value true⟩ c = (.word (.literal value) :: r.1, r.2) := by
  simp [next, proceed, finish?, parts, wordOf]

/-- A character that parts no words and starts no substitution is added to the word. -/
theorem next_ordinary {c : Char} {value : List Char} (parts : separate? x stack true c = none)
    (bracket : (x.substitutes && c = '[') = false) (dollar : (x.substitutes && c = '$') = false)
    (backslash : c ≠ '\\') :
    next x ⟨stack, .word .bare value true⟩ c = reading stack (.word .bare (value ++ [c]) true) := by
  simp [next, proceed, finish?, parts, within, bracket, dollar, backslash]

/-- A dollar sign may be the start of a variable. -/
theorem next_dollar {value : List Char} (parts : separate? x stack true '$' = none)
    (substitutes : x.substitutes = true) :
    next x ⟨stack, .word .bare value true⟩ '$' = reading stack (.dollar .bare value true) := by
  simp [next, proceed, finish?, parts, within, substitutes]

/-- A variable leaves no value to the word. -/
theorem run_variable_ne {s value given : List Char} {style : Style} {rest : List Event}
    {k' : Control} (named : startsVariable s = true) :
    run x ⟨stack, .dollar style value true⟩ s ≠ (.word (.literal given) :: rest, k') := by
  cases s with
  | nil => simp [startsVariable] at named
  | cons c s =>
    simp only [startsVariable, Bool.or_eq_true, Bool.and_eq_true, decide_eq_true_eq] at named
    rcases named with ((name | rfl) | rfl) | ⟨rfl, colon⟩
    · have entered : next x ⟨stack, .dollar style value true⟩ c = reading stack (.name style) := by
        simp [next, name]
      rw [run_cons_of_reading entered]
      exact run_ne_of_impure (k := ⟨stack, .name style⟩) trivial s given rest k'
    · have entered : next x ⟨stack, .dollar style value true⟩ '\x7b' =
          reading stack (.bracedName style) := rfl
      rw [run_cons_of_reading entered]
      exact run_ne_of_impure (k := ⟨stack, .bracedName style⟩) trivial s given rest k'
    · have entered : next x ⟨stack, .dollar style value true⟩ '(' =
          reading stack (.index style) := rfl
      rw [run_cons_of_reading entered]
      exact run_ne_of_impure (k := ⟨stack, .index style⟩) trivial s given rest k'
    · obtain ⟨s, rfl⟩ := List.head?_eq_some_iff.mp colon
      have first : next x ⟨stack, .dollar style value true⟩ ':' =
          reading stack (.colon style value true) := rfl
      have second : next x ⟨stack, .colon style value true⟩ ':' =
          reading stack (.name style) := rfl
      rw [run_cons_of_reading first, run_cons_of_reading second]
      exact run_ne_of_impure (k := ⟨stack, .name style⟩) trivial s given rest k'

/-- A dollar sign that starts no variable is part of the word. -/
theorem run_dollar {s value : List Char} (plain : startsVariable s = false) (some : s ≠ [])
    (more : s ≠ [':']) :
    run x ⟨stack, .dollar .bare value true⟩ s =
      run x ⟨stack, .word .bare (value ++ ['$']) true⟩ s := by
  cases s with
  | nil => exact absurd rfl some
  | cons c s =>
    simp only [startsVariable, Bool.or_eq_false_iff, decide_eq_false_iff_not] at plain
    obtain ⟨⟨⟨name, brace⟩, index⟩, colons⟩ := plain
    by_cases colon : c = ':'
    · subst colon
      have added : next x ⟨stack, .word .bare (value ++ ['$']) true⟩ ':' =
          reading stack (.word .bare (value ++ ['$', ':']) true) := by
        rw [next_ordinary separate?_colon (by simp) (by simp) (by decide)]
        simp
      have first : next x ⟨stack, .dollar .bare value true⟩ ':' =
          reading stack (.colon .bare value true) := rfl
      rw [run_cons_of_reading first, run_cons_of_reading added]
      cases s with
      | nil => exact absurd rfl more
      | cons d s =>
        have single : d ≠ ':' := by simpa using colons
        exact run_cons_congr (by simp [next, single]) s
    · exact run_cons_congr (by simp [next, name, brace, index, colon]) s

/-- A character that neither ends a word nor starts a substitution is part of it. -/
theorem run_word_cons {c : Char} {s value : List Char} (parts : separate? x stack true c = none)
    (plain : (x.substitutes && (c = '[' || (c = '$' && startsVariable s))) = false)
    (backslash : c ≠ '\\') (some : s ≠ []) (more : s ≠ [':']) :
    run x ⟨stack, .word .bare value true⟩ (c :: s) =
      run x ⟨stack, .word .bare (value ++ [c]) true⟩ s := by
  have bracket : (x.substitutes && c = '[') = false := by grind
  by_cases dollar : (x.substitutes && c = '$') = true
  · obtain ⟨substitutes, isDollar⟩ := Bool.and_eq_true_iff.mp dollar
    obtain rfl : c = '$' := of_decide_eq_true isDollar
    rw [run_cons_of_reading (next_dollar parts substitutes)]
    exact run_dollar (by simpa [substitutes] using plain) some more
  · exact run_cons_of_reading
      (next_ordinary parts bracket (Bool.eq_false_iff.mpr dollar) backslash) s

section

variable {c : Char} {r : List Event × Control} {t value : List Char}

/-- Whether a dollar sign starts a variable does not depend on what follows a separator. -/
theorem startsVariable_append (after : startsVariable [c] = false) (other : c ≠ ':')
    (s : List Char) : startsVariable (t ++ c :: s) = startsVariable t := by
  cases t with
  | nil => simpa [startsVariable, other] using after
  | cons a t => cases t <;> simp [startsVariable, other]

theorem append_cons_ne (other : c ≠ ':') (s : List Char) : t ++ c :: s ≠ [':'] := by
  cases t with
  | nil => simp [other]
  | cons a t => simp

/-- A clean text is a word with the text as its value. -/
theorem run_clean (parts : separate? x stack true c = some r) (after : startsVariable [c] = false)
    (free : '\\' ∉ t) (isClean : clean x (!stack.isEmpty) t = true) (s : List Char) :
    run x ⟨stack, .word .bare value true⟩ (t ++ c :: s) =
      (.word (.literal (value ++ t)) :: (r.1 ++ (run x r.2 s).1), (run x r.2 s).2) := by
  have other := ne_colon_of_separate? parts
  induction t generalizing value with
  | nil => simp [run, next_separator parts]
  | cons a t ih =>
    simp only [clean, Bool.and_eq_true, Bool.not_eq_true'] at isClean
    obtain ⟨⟨ordinary, plain⟩, isClean⟩ := isClean
    rw [← startsVariable_append after other s] at plain
    rw [List.cons_append, run_word_cons (separate?_eq_none_iff.mpr ordinary) plain
      (fun e => free (e ▸ List.mem_cons_self)) (by simp) (append_cons_ne other s),
      ih (fun m => free (List.mem_cons_of_mem _ m)) isClean]
    simp

/-- A text that is not clean is no word with the text as its value. -/
theorem run_ne_of_unclean (parts : separate? x stack true c = some r)
    (after : startsVariable [c] = false) (free : '\\' ∉ t)
    (unclean : clean x (!stack.isEmpty) t = false) (s : List Char) (rest : List Event)
    (k' : Control) :
    run x ⟨stack, .word .bare value true⟩ (t ++ c :: s) ≠
      (.word (.literal (value ++ t)) :: rest, k') := by
  have other := ne_colon_of_separate? parts
  induction t generalizing value with
  | nil => simp [clean] at unclean
  | cons a t ih =>
    rw [List.cons_append]
    cases ends : separate? x stack true a with
    | some r =>
      -- The word ends here, too short.
      simp [run, next_separator ends]
    | none =>
      cases plain : x.substitutes && (a = '[' || (a = '$' && startsVariable t)) with
      | true =>
        obtain ⟨substitutes, special⟩ := Bool.and_eq_true_iff.mp plain
        simp only [Bool.or_eq_true, Bool.and_eq_true, decide_eq_true_eq] at special
        rcases special with rfl | ⟨rfl, named⟩
        · simp [run, next, proceed, finish?, ends, within, substitutes]
        · rw [run_cons_of_reading (next_dollar ends substitutes)]
          exact run_variable_ne (by rwa [startsVariable_append after other])
      | false =>
        have later : clean x (!stack.isEmpty) t = false := by
          simpa [clean, separate?_eq_none_iff.mp ends, plain] using unclean
        rw [← startsVariable_append after other s] at plain
        rw [run_word_cons ends plain (fun e => free (e ▸ List.mem_cons_self)) (by simp)
          (append_cons_ne other s)]
        have apart : run x ⟨stack, .word .bare (value ++ [a]) true⟩ (t ++ c :: s) ≠
            (.word (.literal (value ++ [a] ++ t)) :: rest, k') :=
          ih (fun m => free (List.mem_cons_of_mem _ m)) later
        simpa using apart

end

/-! ### Words in braces -/

/-- The number of open braces behind a character, if it does not close the word itself. -/
def depthAfter? (depth : Nat) (c : Char) : Option Nat :=
  if c = '\x7b' then some (depth + 1)
  else if c = '\x7d' then
    match depth with
    | 0 => none
    | depth + 1 => some depth
  else some depth

/-- The text leads from this many open braces to none and does not close the word. -/
def balanced (depth : Nat) : List Char → Bool
  | [] => depth = 0
  | c :: s =>
    match depthAfter? depth c with
    | none => false
    | some depth => balanced depth s

section

variable {c : Char} {depth : Nat} {t value : List Char}

/-- A character in braces is part of the word, or closes it. -/
theorem next_braced (x : Rules) (stack : List Current) (depth : Nat) (value : List Char)
    (backslash : c ≠ '\\') :
    next x ⟨stack, .braced depth value true⟩ c = reading stack
      (match depthAfter? depth c with
      | some depth => .braced depth (value ++ [c]) true
      | none => .closed value true) := by
  by_cases opens : c = '\x7b'
  · subst opens
    rfl
  · by_cases closes : c = '\x7d'
    · subst closes
      cases depth <;> rfl
    · simp [next, depthAfter?, backslash, opens, closes]

/-- A text with balanced braces is read up to the brace that closes the word. -/
theorem run_balanced (free : '\\' ∉ t) (isBalanced : balanced depth t = true) (s : List Char) :
    run x ⟨stack, .braced depth value true⟩ (t ++ '\x7d' :: s) =
      run x ⟨stack, .closed (value ++ t) true⟩ s := by
  induction t generalizing depth value with
  | nil =>
    obtain rfl : depth = 0 := by simpa [balanced] using isBalanced
    have closes : next x ⟨stack, .braced 0 value true⟩ '\x7d' =
        reading stack (.closed value true) := rfl
    rw [List.nil_append, List.append_nil, run_cons_of_reading closes]
  | cons a t ih =>
    have backslash : a ≠ '\\' := fun e => free (e ▸ List.mem_cons_self)
    have step := next_braced x stack depth value backslash
    rw [balanced] at isBalanced
    cases behind : depthAfter? depth a with
    | none => simp [behind] at isBalanced
    | some depth' =>
      rw [behind] at step isBalanced
      rw [List.cons_append, run_cons_of_reading step,
        ih (fun m => free (List.mem_cons_of_mem _ m)) isBalanced]
      simp

/-- Behind the brace that closes a word, the word has its value or none. -/
theorem run_closed_ne {given : List Char} (different : given ≠ value) (s : List Char)
    (rest : List Event) (k' : Control) :
    run x ⟨stack, .closed value true⟩ s ≠ (.word (.literal given) :: rest, k') := by
  cases s with
  | nil => simp
  | cons a s =>
    cases parts : separate? x stack true a with
    | some r => simp [run, next, finish?, parts, wordOf, different.symm]
    | none =>
      have broke : next x ⟨stack, .closed value true⟩ a = reading stack .broken := by
        simp [next, finish?, parts]
      rw [run_cons_of_reading broke]
      exact run_ne_of_impure (k := ⟨stack, .broken⟩) trivial s given rest k'

/-- A text whose braces are not balanced is no word in braces with the text as its value. -/
theorem run_ne_of_unbalanced (free : '\\' ∉ t) (unbalanced : balanced depth t = false)
    (rest : List Event) (k' : Control) :
    run x ⟨stack, .braced depth value true⟩ (t ++ ['\x7d', c]) ≠
      (.word (.literal (value ++ t)) :: rest, k') := by
  induction t generalizing depth value with
  | nil =>
    cases depth with
    | zero => cases unbalanced
    | succ depth =>
      have kept : next x ⟨stack, .braced (depth + 1) value true⟩ '\x7d' =
          reading stack (.braced depth (value ++ ['\x7d']) true) := rfl
      rw [List.nil_append, run_cons_of_reading kept]
      by_cases backslash : c = '\\'
      · subst backslash
        simp [run, next, reading]
      · simp [run, next_braced x stack depth _ backslash, reading]
  | cons a t ih =>
    have backslash : a ≠ '\\' := fun e => free (e ▸ List.mem_cons_self)
    have step := next_braced x stack depth value backslash
    rw [balanced] at unbalanced
    cases behind : depthAfter? depth a with
    | none =>
      rw [behind] at step
      rw [List.cons_append, run_cons_of_reading step]
      exact run_closed_ne (by simp) _ rest k'
    | some depth' =>
      rw [behind] at step unbalanced
      rw [List.cons_append, run_cons_of_reading step]
      have apart : run x ⟨stack, .braced depth' (value ++ [a]) true⟩ (t ++ ['\x7d', c]) ≠
          (.word (.literal (value ++ [a] ++ t)) :: rest, k') :=
        ih (fun m => free (List.mem_cons_of_mem _ m)) unbalanced
      simpa using apart

end

/-! ### Paths as words -/

/-- The text of a path in a script: it starts with a slash and holds no backslash. -/
structure PathText (t : List Char) : Prop where
  rooted : t.head? = some '/'
  free : '\\' ∉ t

section

variable {c : Char} {r : List Event × Control} {begun : Bool} {t : List Char}

/-- A slash starts a bare word. -/
theorem next_slash :
    next x ⟨stack, .between begun⟩ '/' = reading stack (.word .bare ['/'] true) := by
  simp [next, separate?, start, within, x.slash.1, x.slash.2]

/-- A clean path is a word with the path as its value. -/
theorem run_path (parts : separate? x stack true c = some r) (after : startsVariable [c] = false)
    (path : PathText t) (isClean : clean x (!stack.isEmpty) t = true) (s : List Char) :
    run x ⟨stack, .between begun⟩ (t ++ c :: s) =
      (.word (.literal t) :: (r.1 ++ (run x r.2 s).1), (run x r.2 s).2) := by
  obtain ⟨u, rfl⟩ := List.head?_eq_some_iff.mp path.rooted
  have rest : clean x (!stack.isEmpty) u = true := (Bool.and_eq_true_iff.mp isClean).2
  rw [List.cons_append, run_cons_of_reading next_slash,
    run_clean parts after (fun m => path.free (List.mem_cons_of_mem _ m)) rest]
  simp

/-- A path that is not clean is no word with the path as its value. -/
theorem run_path_ne (parts : separate? x stack true c = some r)
    (after : startsVariable [c] = false) (path : PathText t)
    (unclean : clean x (!stack.isEmpty) t = false) (s : List Char) (rest : List Event)
    (k' : Control) :
    run x ⟨stack, .between begun⟩ (t ++ c :: s) ≠ (.word (.literal t) :: rest, k') := by
  obtain ⟨u, rfl⟩ := List.head?_eq_some_iff.mp path.rooted
  have later : clean x (!stack.isEmpty) u = false := by
    simpa [clean, x.slash.1, x.slash.2] using unclean
  rw [List.cons_append, run_cons_of_reading next_slash]
  exact run_ne_of_unclean parts after (fun m => path.free (List.mem_cons_of_mem _ m)) later s rest k'

/-- A path in front of a separator is one word with the path as its value exactly if it is clean. -/
theorem run_path_iff (parts : separate? x stack true c = some r)
    (after : startsVariable [c] = false) (path : PathText t) :
    run x ⟨stack, .between begun⟩ (t ++ [c]) = (.word (.literal t) :: r.1, r.2) ↔
      clean x (!stack.isEmpty) t = true := by
  constructor
  · intro read
    cases isClean : clean x (!stack.isEmpty) t with
    | true => rfl
    | false => exact absurd read (run_path_ne parts after path isClean [] r.1 r.2)
  · intro isClean
    simpa using run_path parts after path isClean []

/-- A text in braces is one word with the text as its value exactly if its braces are balanced. -/
theorem run_braced_iff (parts : separate? script stack true c = some r) (free : '\\' ∉ t) :
    run script ⟨stack, .between begun⟩ ('\x7b' :: t ++ ['\x7d', c]) =
      (.word (.literal t) :: r.1, r.2) ↔ balanced 0 t = true := by
  have opens : next script ⟨stack, .between begun⟩ '\x7b' =
      reading stack (.braced 0 [] true) := rfl
  rw [List.cons_append, run_cons_of_reading opens]
  constructor
  · intro read
    cases isBalanced : balanced 0 t with
    | true => rfl
    | false => exact absurd read (run_ne_of_unbalanced free isBalanced r.1 r.2)
  · intro isBalanced
    rw [run_balanced free isBalanced]
    simp [run, next, finish?, parts, wordOf]

end

/-- The texts are the elements of the list that they make with blanks between them. -/
def Elements (ts : List (List Char)) : Prop :=
  (run list .fresh (Text.joinWith ' ' ts ++ [' '])).1 = ts.map fun t => .word (.literal t)

/-- Paths are the elements of the list that they make exactly if each of them is clean. -/
theorem elements_iff {ts : List (List Char)} (paths : ∀ t ∈ ts, PathText t) :
    Elements ts ↔ ∀ t ∈ ts, clean list false t = true := by
  by_cases some : ts = []
  · subst some
    exact iff_of_true rfl (by simp)
  · have closed : ∀ {begun : Bool}, (run list ⟨[], .between begun⟩ (ts.flatMap (· ++ [' ']))).1 =
        ts.map (fun t => .word (.literal t)) ↔ ∀ t ∈ ts, clean list false t = true := by
      clear some
      induction ts with
      | nil => simp
      | cons t ts ih =>
        intro begun
        have path := paths t List.mem_cons_self
        have others := fun u hu => paths u (List.mem_cons_of_mem _ hu)
        have blank : separate? list [] true ' ' = some (reading [] (.between true)) := rfl
        have shape : (t :: ts).flatMap (· ++ [' ']) = t ++ ' ' :: ts.flatMap (· ++ [' ']) := by
          simp
        rw [shape, List.forall_mem_cons, List.map_cons]
        by_cases isClean : clean list false t = true
        · rw [run_path blank (by decide) path isClean]
          simp only [reading, List.nil_append, List.cons.injEq, true_and, isClean]
          exact ih others
        · refine iff_of_false ?_ fun h => isClean h.1
          intro read
          exact run_path_ne blank (by decide) path (Bool.eq_false_iff.mpr isClean) _ _ _
            (Prod.ext read rfl)
    rw [Elements, Text.joinWith_append_singleton some]
    exact closed

end FpgaProject.Tcl
