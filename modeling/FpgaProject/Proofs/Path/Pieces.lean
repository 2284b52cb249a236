import FpgaProject.Proofs.Path.Text

/-!
The pieces of joined and absolute paths.

The pieces of a path say where it leads, and they go through joining: a relative path below another
one has the pieces of both (`pieces_join`). An absolute form has the pieces of its path, `.` aside,
after those of the working directory if the path is relative (`pieces_absolute?`).
-/

namespace FpgaProject.Path

/-- Paths are equal if their characters are. -/
theorem chars_injective {p q : Path} (same : p.chars = q.chars) : p = q := by
  have text : p.text = q.text := String.toList_injective same
  cases p
  exact congrArg Path.mk text

/-- The names between the slashes of a text. -/
def names (s : List Char) : List String :=
  ((Text.splitAt '/' s).filter (· ≠ [])).map String.ofList

theorem pieces_eq_names (p : Path) : p.pieces = names p.chars := rfl

theorem names_append_slash (s t : List Char) : names (s ++ '/' :: t) = names s ++ names t := by
  simp [names, Text.splitAt_append_cons]

@[simp] theorem names_nil : names [] = [] := by
  simp [names]

/-- A text that is a name is the one name in it. -/
theorem names_of_notMem {s : List Char} (free : '/' ∉ s) (ne : s ≠ []) :
    names s = [String.ofList s] := by
  simp [names, Text.splitAt_of_notMem free, ne]

/-- The names between slashes are not empty and hold no slash. -/
theorem name_of_mem_names {s : List Char} {name : String} (h : name ∈ names s) :
    name ≠ "" ∧ '/' ∉ name.toList := by
  obtain ⟨piece, hp, rfl⟩ := List.mem_map.mp h
  obtain ⟨member, ne⟩ := List.mem_filter.mp hp
  refine ⟨?_, ?_⟩
  · intro empty
    have : piece = [] := by simpa using congrArg String.toList empty
    simp [this] at ne
  · rw [String.toList_ofList]
    exact Text.not_mem_of_mem_splitAt member

/-! ### Joined paths -/

theorem names_of_endsInSlash {p : Path} (h : p.endsInSlash = true) :
    ∃ s, p.chars = s ++ ['/'] ∧ p.pieces = names s := by
  obtain ⟨s, hs⟩ : ∃ s, p.chars = s ++ ['/'] :=
    List.getLast?_eq_some_iff.mp (by simpa [endsInSlash] using h)
  refine ⟨s, hs, ?_⟩
  rw [pieces_eq_names, hs, names_append_slash, names_nil, List.append_nil]

/-- A relative path below another one has the pieces of both. -/
theorem pieces_join {q : Path} (h : q.isAbsolute = false) (p : Path) :
    (p.join q).pieces = p.pieces ++ q.pieces := by
  unfold join
  split
  · rename_i first
    have empty : p.text = "" := by simpa [h] using first
    simp [pieces_eq_names, chars, empty]
  · split
    · rename_i last
      obtain ⟨s, hs, hp⟩ := names_of_endsInSlash last
      rw [hp, pieces_eq_names, pieces_eq_names, ← names_append_slash]
      have : (⟨p.text ++ q.text⟩ : Path).chars = p.chars ++ q.chars := by simp [chars]
      rw [this, hs, List.append_assoc, List.singleton_append]
    · rw [pieces_eq_names, pieces_eq_names, pieces_eq_names, ← names_append_slash]
      have : (⟨p.text ++ "/" ++ q.text⟩ : Path).chars = p.chars ++ '/' :: q.chars := by
        simp [chars]
      rw [this]

/-- The characters of a relative path below another one. -/
theorem chars_join {p q : Path} (given : p.text ≠ "") (relative : q.isAbsolute = false) :
    (p.join q).chars = p.chars ++ ((if p.endsInSlash then [] else ['/']) ++ q.chars) := by
  unfold join
  rw [relative, Bool.false_or, if_neg (by simpa using given)]
  split <;> simp [chars]

/-- A path is absolute if its first characters make an absolute path. -/
theorem isAbsolute_of_append {p q : Path} {more : List Char} (whole : p.chars = q.chars ++ more)
    (given : q.text ≠ "") : p.isAbsolute = q.isAbsolute := by
  obtain ⟨c, rest, hq⟩ : ∃ c rest, q.chars = c :: rest :=
    List.exists_cons_of_ne_nil (mt String.toList_eq_nil_iff.mp given)
  simp [isAbsolute, whole, hq]

/-- A relative path below another one is absolute if that one is. -/
theorem isAbsolute_join_of_relative {p q : Path} (given : p.text ≠ "")
    (relative : q.isAbsolute = false) : (p.join q).isAbsolute = p.isAbsolute :=
  isAbsolute_of_append (chars_join given relative) given

/-- A relative path below another one ends in a slash if it does itself, or if it is empty. -/
theorem endsInSlash_join {p q : Path} (given : p.text ≠ "") (relative : q.isAbsolute = false) :
    (p.join q).endsInSlash = (q.text.isEmpty || q.endsInSlash) := by
  rw [endsInSlash, chars_join given relative]
  by_cases empty : q.text = ""
  · have nothing : q.chars = [] := by simp [chars, empty]
    rw [nothing, String.isEmpty_iff.mpr empty, Bool.true_or, List.append_nil]
    by_cases slash : p.endsInSlash = true
    · rw [if_pos slash, List.append_nil]
      exact slash
    · simp [slash]
  · obtain ⟨c, last⟩ := Option.isSome_iff_exists.mp
      (List.getLast?_isSome.mpr (mt String.toList_eq_nil_iff.mp empty))
    have last' : q.chars.getLast? = some c := last
    simp [List.getLast?_append, last', empty, endsInSlash]

/-- Whether a text can be the name of an entry, or `.` or `..`. -/
def IsName (name : String) : Prop :=
  name ≠ "" ∧ '/' ∉ name.toList

instance (name : String) : Decidable (IsName name) := inferInstanceAs (Decidable (_ ∧ _))

theorem isName_of_mem_pieces {p : Path} {name : String} (h : name ∈ p.pieces) : IsName name :=
  name_of_mem_names h

theorem isAbsolute_name {name : String} (h : IsName name) :
    (⟨name⟩ : Path).isAbsolute = false := by
  simp only [isAbsolute, chars, beq_eq_false_iff_ne, ne_eq]
  intro first
  exact h.2 (List.mem_of_head? first)

/-- An entry below a path adds its name. -/
theorem pieces_child {name : String} (h : IsName name) (p : Path) :
    (p.child name).pieces = p.pieces ++ [name] := by
  rw [child, pieces_join (isAbsolute_name h)]
  have : (⟨name⟩ : Path).pieces = [name] := by
    rw [pieces_eq_names, chars, names_of_notMem h.2 (mt String.toList_eq_nil_iff.mp h.1),
      String.ofList_toList]
  rw [this]

theorem pieces_child_empty (p : Path) : (p.child "").pieces = p.pieces := by
  have empty : (⟨""⟩ : Path).pieces = [] := by simp [pieces_eq_names, chars]
  rw [child, pieces_join rfl, empty, List.append_nil]

/-- The characters of an entry below a path. -/
theorem chars_child {name : String} (h : IsName name) (p : Path) :
    (p.child name).chars =
      p.chars ++ (if p.text.isEmpty || p.endsInSlash then [] else ['/']) ++ name.toList := by
  unfold child join
  rw [isAbsolute_name h, Bool.false_or]
  cases empty : p.text.isEmpty with
  | true => simp [chars, String.isEmpty_iff.mp empty]
  | false =>
    simp only [Bool.false_eq_true, if_false, Bool.false_or]
    split <;> simp [chars]

theorem toList_ne_nil {name : String} (h : IsName name) : name.toList ≠ [] :=
  mt String.toList_eq_nil_iff.mp h.1

theorem text_child_ne {name : String} (h : IsName name) (p : Path) : (p.child name).text ≠ "" := by
  intro empty
  have none : (p.child name).chars = [] := by simp [chars, empty]
  rw [chars_child h, List.append_eq_nil_iff] at none
  exact toList_ne_nil h none.2

theorem isAbsolute_child {name : String} (h : IsName name) (p : Path) :
    (p.child name).isAbsolute = p.isAbsolute := by
  cases hp : p.chars with
  | nil =>
    have empty : p.text = "" := String.toList_eq_nil_iff.mp hp
    have joined : (p.child name).isAbsolute = (⟨name⟩ : Path).isAbsolute := by
      simp [child, join, empty]
    rw [joined, isAbsolute_name h]
    simp [isAbsolute, hp]
  | cons c rest => simp [isAbsolute, chars_child h, hp]

/-- What ends in characters that are no slashes does not end in a slash. -/
theorem endsInSlash_of_suffix {p : Path} {last : List Char} (ends : last <:+ p.chars)
    (present : last ≠ []) (free : '/' ∉ last) : p.endsInSlash = false := by
  obtain ⟨before, whole⟩ := ends
  obtain ⟨c, hc⟩ := Option.isSome_iff_exists.mp (List.getLast?_isSome.mpr present)
  rw [endsInSlash, ← whole, List.getLast?_append, hc, Option.some_or, beq_eq_false_iff_ne]
  intro slash
  exact free (List.mem_of_getLast? (hc.trans slash))

theorem endsInSlash_child {name : String} (h : IsName name) (p : Path) :
    (p.child name).endsInSlash = false := by
  refine endsInSlash_of_suffix ?_ (toList_ne_nil h) h.2
  rw [chars_child h]
  exact List.suffix_append _ _

theorem pieces_foldl_child {ns : List String} (h : ∀ name ∈ ns, IsName name) (p : Path) :
    (ns.foldl child p).pieces = p.pieces ++ ns := by
  induction ns generalizing p with
  | nil => simp
  | cons name ns ih =>
    rw [List.foldl_cons, ih (fun n hn => h n (List.mem_cons_of_mem _ hn)),
      pieces_child (h name List.mem_cons_self), List.append_assoc, List.singleton_append]

/-! ### Absolute forms -/

/-- A path starts where its first characters start, unless these end in a slash and another one comes
right behind them. -/
theorem start_of_append {p q : Path} {more : List Char} (whole : p.chars = q.chars ++ more)
    (given : q.text ≠ "") (apart : q.endsInSlash = false ∨ more.head? ≠ some '/') (dir : Path) :
    p.start dir = q.start dir := by
  unfold start
  rw [isAbsolute_of_append whole given, whole]
  split
  · rename_i rooted
    -- Only the first three characters matter; with fewer, those behind come into view.
    rcases hq : q.chars with _ | ⟨x, _ | ⟨y, _ | ⟨z, rest⟩⟩⟩
    · simp [isAbsolute, hq] at rooted
    all_goals obtain rfl : x = '/' := by simpa [isAbsolute, hq] using rooted
    · cases more with
      | nil => rfl
      | cons c more =>
        have other : c ≠ '/' := by simpa [endsInSlash, hq] using apart
        simp [other]
    · by_cases twice : y = '/'
      · cases more with
        | nil => rfl
        | cons c more =>
          have other : c ≠ '/' := by simpa [endsInSlash, hq, twice] using apart
          simp [twice, other]
      · simp [twice]
    · by_cases twice : y = '/'
      · by_cases thrice : z = '/' <;> simp [twice, thrice]
      · simp [twice]
  · rfl

/-- An absolute form starts alike for a path and for a relative one below it. -/
theorem start_join {p q : Path} (given : p.text ≠ "") (relative : q.isAbsolute = false)
    (cwd : Path) : (p.join q).start cwd = p.start cwd := by
  refine start_of_append (chars_join given relative) given ?_ cwd
  cases slash : p.endsInSlash with
  | false => exact .inl rfl
  | true => exact .inr (by simpa [isAbsolute] using relative)

theorem pieces_start (p cwd : Path) :
    (p.start cwd).pieces = if p.isAbsolute then [] else cwd.pieces := by
  unfold start
  split
  · split <;> rfl
  · rfl

/-- An absolute form has the pieces of its path, `.` aside, after those of the directory in which a
relative path starts. -/
theorem pieces_absolute? {p cwd q : Path} (hq : p.absolute? cwd = some q) :
    q.pieces = (if p.isAbsolute then [] else cwd.pieces) ++ p.keptPieces := by
  have kept : ∀ name ∈ p.keptPieces, IsName name :=
    fun name hn => isName_of_mem_pieces (List.mem_filter.mp hn).1
  have base : (p.keptPieces.foldl child (p.start cwd)).pieces =
      (if p.isAbsolute then [] else cwd.pieces) ++ p.keptPieces := by
    rw [pieces_foldl_child kept, pieces_start]
  unfold absolute? at hq
  split at hq
  · cases hq
  · obtain rfl := Option.some.inj hq
    split
    · rw [pieces_child_empty, base]
    · exact base

end FpgaProject.Path
