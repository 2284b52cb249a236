import Mathlib.Data.List.Basic
import Mathlib.Data.List.Induction
import FpgaProject.Proofs.Path.Pieces

/-!
The steps of a path, and the path above an entry.

The steps of a path are its pieces, whether or not they lead on; nothing is lost in them
(`path_steps`). An entry below a path has one step more (`steps_child`), so the path above the entry
is the path again, but without the idle pieces at its end (`parent?_child`): what is left is its
bare form. The bare form keeps all the pieces that count (`keptPieces_bare`), and it starts where the
path starts unless no piece counts (`start_bare`).
-/

namespace FpgaProject.Path

/-! ### Idle pieces -/

section

variable {piece : List Char} {body : List (List Char)}

theorem trimmed_concat (counts : isIdle piece = false) (body : List (List Char)) :
    trimmed (body ++ [piece]) = body ++ [piece] := by
  simp [trimmed, counts]

theorem trimmed_concat_idle (idle : isIdle piece = true) (body : List (List Char)) :
    trimmed (body ++ [piece]) = trimmed body := by
  simp [trimmed, idle]

theorem prefix_trimmed (body : List (List Char)) : trimmed body <+: body := by
  induction body using List.reverseRecOn with
  | nil => exact List.prefix_rfl
  | append_singleton body piece ih =>
    cases idle : isIdle piece with
    | true =>
      rw [trimmed_concat_idle idle]
      exact ih.trans (List.prefix_append body [piece])
    | false => simp [trimmed_concat idle]

/-- Of the pieces that count, none is trimmed away. -/
theorem filter_trimmed (body : List (List Char)) :
    (trimmed body).filter (!isIdle ·) = body.filter (!isIdle ·) := by
  induction body using List.reverseRecOn with
  | nil => rfl
  | append_singleton body piece ih =>
    cases idle : isIdle piece with
    | true => simp [trimmed_concat_idle idle, ih, idle]
    | false => rw [trimmed_concat idle]

/-- What is left by trimming ends in a piece that counts. -/
theorem exists_trimmed_concat (left : trimmed body ≠ []) :
    ∃ front piece, trimmed body = front ++ [piece] ∧ isIdle piece = false := by
  induction body using List.reverseRecOn with
  | nil => exact absurd rfl left
  | append_singleton body piece ih =>
    cases idle : isIdle piece with
    | true =>
      rw [trimmed_concat_idle idle] at left ⊢
      exact ih left
    | false => exact ⟨body, piece, trimmed_concat idle body, idle⟩

end

/-! ### A path and its steps -/

/-- Two paths that start alike have the same steps but for the pieces in which they differ. -/
theorem steps_of_splitAt {p q : Path} {piece : List Char} {body body' : List (List Char)}
    (same : q.isAbsolute = p.isAbsolute) (hp : Text.splitAt '/' p.chars = piece :: body)
    (hq : Text.splitAt '/' q.chars = piece :: body') :
    ∃ front, p.steps.body = front ++ body ∧
      q.steps = { p.steps with body := front ++ body' } := by
  unfold steps
  rw [same, hp, hq]
  cases p.isAbsolute with
  | true => exact ⟨[], rfl, rfl⟩
  | false =>
    by_cases dot : piece = ['.']
    · exact ⟨[], by simp [dot], by simp [dot]⟩
    · exact ⟨[piece], by simp [dot], by simp [dot]⟩

theorem rooted_steps (p : Path) : p.steps.rooted = p.isAbsolute := by
  unfold steps
  cases p.isAbsolute with
  | true => rfl
  | false =>
    simp only [Bool.false_eq_true, if_false]
    split <;> rfl

/-- A path is made of its steps. -/
theorem path_steps (p : Path) : p.steps.path = p := by
  have whole := Text.joinWith_splitAt '/' p.chars
  have made : String.ofList p.chars = p.text := String.ofList_toList
  unfold steps
  cases absolute : p.isAbsolute with
  | true =>
    obtain ⟨rest, hp⟩ : ∃ rest, p.chars = '/' :: rest := by
      cases hp : p.chars with
      | nil => simp [isAbsolute, hp] at absolute
      | cons c rest =>
        obtain rfl : c = '/' := by simpa [isAbsolute, hp] using absolute
        exact ⟨rest, rfl⟩
    have again : String.ofList ('/' :: rest) = p.text := by rw [← hp, made]
    simp [Steps.path, hp, Text.splitAt_cons_self, Text.joinWith_splitAt, again]
  | false =>
    by_cases dot : (Text.splitAt '/' p.chars).head? = some ['.']
    · obtain ⟨rest, split⟩ := List.head?_eq_some_iff.mp dot
      rw [split] at whole
      simp [Steps.path, split, whole, made]
    · simp [Steps.path, dot, whole, made]

theorem notMem_of_mem_steps {p : Path} {piece : List Char} (h : piece ∈ p.steps.body) :
    '/' ∉ piece := by
  have sub : p.steps.body ⊆ Text.splitAt '/' p.chars := by
    unfold steps
    dsimp only
    split
    · exact (List.tail_sublist _).subset
    · split
      · exact (List.tail_sublist _).subset
      · exact List.Subset.refl _
  exact Text.not_mem_of_mem_splitAt (sub h)

/-- The names in a joined text are its pieces that are not empty. -/
theorem names_joinWith {pieces : List (List Char)} (free : ∀ piece ∈ pieces, '/' ∉ piece) :
    names (Text.joinWith '/' pieces) = (pieces.filter (· ≠ [])).map String.ofList := by
  by_cases none : pieces = []
  · subst none
    exact names_nil
  · rw [names, Text.splitAt_joinWith none free]

/-- The pieces that an absolute form keeps are the steps that are not idle. -/
theorem keptPieces_path {s : Steps} (free : ∀ piece ∈ s.body, '/' ∉ piece) :
    s.path.keptPieces = (s.body.filter (!isIdle ·)).map String.ofList := by
  obtain ⟨rooted, dotted, body⟩ := s
  have slash : ∀ t, names ('/' :: t) = names t := fun t => names_append_slash [] t
  have pieces : (Steps.path ⟨rooted, dotted, body⟩).pieces =
      ((if dotted then ['.'] :: body else body).filter (· ≠ [])).map String.ofList := by
    rw [← names_joinWith]
    · rw [pieces_eq_names]
      cases rooted <;> simp [Steps.path, chars, slash]
    · split
      · exact List.forall_mem_cons.mpr ⟨by decide, free⟩
      · exact free
  have counts : ∀ piece : List Char,
      (decide (String.ofList piece ≠ ".") && decide (piece ≠ [])) = !isIdle piece := by
    intro piece
    have dot : String.ofList piece = "." ↔ piece = ['.'] := by
      rw [← String.toList_inj, String.toList_ofList]
      rfl
    rw [Bool.eq_iff_iff]
    simp [isIdle, dot, and_comm]
  rw [keptPieces, pieces, List.filter_map, List.filter_filter]
  simp only [Function.comp_def, counts]
  cases dotted <;> simp [isIdle]

theorem keptPieces_eq (p : Path) :
    p.keptPieces = (p.steps.body.filter (!isIdle ·)).map String.ofList := by
  rw [← keptPieces_path fun _ => notMem_of_mem_steps, path_steps]

/-! ### Entries below a path -/

theorem isAbsolute_of_notMem {name : String} (free : '/' ∉ name.toList) :
    (⟨name⟩ : Path).isAbsolute = false := by
  rw [isAbsolute, beq_eq_false_iff_ne]
  exact fun first => free (List.mem_of_head? first)

/-- The pieces of an entry below a path are those of the path and the name; a slash at the end of
the path is no piece of its own then. -/
theorem splitAt_child {p : Path} {name : String} (given : p.text ≠ "") (free : '/' ∉ name.toList) :
    ∃ piece pieces, Text.splitAt '/' (p.child name).chars = piece :: (pieces ++ [name.toList]) ∧
      (Text.splitAt '/' p.chars = piece :: pieces ∨
        Text.splitAt '/' p.chars = piece :: (pieces ++ [[]])) := by
  have last : Text.splitAt '/' name.toList = [name.toList] := Text.splitAt_of_notMem free
  have joined : (p.child name).chars =
      p.chars ++ ((if p.endsInSlash then [] else ['/']) ++ name.toList) :=
    chars_join given (isAbsolute_of_notMem free)
  by_cases slash : p.endsInSlash = true
  · obtain ⟨above, whole, -⟩ := names_of_endsInSlash slash
    obtain ⟨piece, pieces, first⟩ := List.exists_cons_of_ne_nil (Text.splitAt_ne_nil '/' above)
    refine ⟨piece, pieces, ?_, .inr ?_⟩
    · have below : (p.child name).chars = above ++ '/' :: name.toList := by
        rw [joined, slash, whole]
        simp
      rw [below, Text.splitAt_append_cons, last, first, List.cons_append]
    · rw [whole, Text.splitAt_append_cons, first]
      rfl
  · obtain ⟨piece, pieces, first⟩ := List.exists_cons_of_ne_nil (Text.splitAt_ne_nil '/' p.chars)
    refine ⟨piece, pieces, ?_, .inl first⟩
    have below : (p.child name).chars = p.chars ++ '/' :: name.toList := by
      simpa [slash] using joined
    rw [below, Text.splitAt_append_cons, last, first, List.cons_append]

/-- The steps of an entry below a path are those of the path and the name, but for idle ones before
the name. Below the empty path the name must be a step of its own. -/
theorem steps_child {p : Path} {name : String} (free : '/' ∉ name.toList)
    (alone : p.text = "" → name ≠ "" ∧ name ≠ ".") :
    ∃ body, (p.child name).steps = { p.steps with body := body ++ [name.toList] } ∧
      trimmed body = trimmed p.steps.body := by
  have relative := isAbsolute_of_notMem free
  by_cases given : p.text = ""
  · have visible : name.toList ≠ ['.'] := fun e => (alone given).2 (String.toList_injective e)
    have single : p.child name = ⟨name⟩ := by simp [child, join, given]
    have empty : p = ⟨""⟩ := by
      cases p
      simpa using given
    refine ⟨[], ?_, ?_⟩
    · have nowhere : (⟨""⟩ : Path).isAbsolute = false := rfl
      rw [single, empty]
      simp [steps, relative, nowhere, chars, Text.splitAt_of_notMem free, visible]
    · rw [empty]
      rfl
  · have same : (p.child name).isAbsolute = p.isAbsolute :=
      isAbsolute_join_of_relative given relative
    obtain ⟨piece, pieces, below, here⟩ := splitAt_child given free
    rcases here with here | here
    · obtain ⟨front, body, steps⟩ := steps_of_splitAt same here below
      refine ⟨front ++ pieces, ?_, by rw [body]⟩
      rw [steps, List.append_assoc]
    · obtain ⟨front, body, steps⟩ := steps_of_splitAt same here below
      refine ⟨front ++ pieces, ?_, ?_⟩
      · rw [steps, List.append_assoc]
      · rw [body, ← List.append_assoc, trimmed_concat_idle rfl]

/-- A path that does not end in a slash is the path to an entry, by its last name. -/
theorem exists_child {p : Path} (given : p.text ≠ "") (noSlash : p.endsInSlash = false) :
    ∃ (above : Path) (name : String), IsName name ∧ p = above.child name := by
  obtain ⟨front, last, split⟩ :=
    (List.eq_nil_or_concat' (Text.splitAt '/' p.chars)).resolve_left (Text.splitAt_ne_nil '/' _)
  obtain ⟨above, before⟩ : ∃ above : Path, above.chars = front.flatMap (· ++ ['/']) :=
    ⟨⟨String.ofList (front.flatMap (· ++ ['/']))⟩, String.toList_ofList⟩
  have whole : p.chars = above.chars ++ last := by
    rw [before, ← Text.joinWith_concat, ← split, Text.joinWith_splitAt]
  have closed : above.text = "" ∨ above.endsInSlash = true := by
    rcases List.eq_nil_or_concat' front with rfl | ⟨first, piece, rfl⟩
    · exact .inl (String.toList_eq_nil_iff.mp before)
    · exact .inr (by simp [endsInSlash, before])
  have present : last ≠ [] := by
    rintro rfl
    have same : p = above := chars_injective (by simpa using whole)
    rcases closed with empty | slash
    · exact given (same ▸ empty)
    · rw [same, slash] at noSlash
      cases noSlash
  have free : '/' ∉ last := by
    apply @Text.not_mem_of_mem_splitAt '/' p.chars
    simp [split]
  have legal : IsName (String.ofList last) := ⟨by simpa using present, by simpa using free⟩
  refine ⟨above, String.ofList last, legal, chars_injective ?_⟩
  rw [chars_child legal, if_pos (by simpa using closed), whole]
  simp

/-! ### The path above -/

/-- A path without the idle pieces at its end. -/
def shortened (p : Path) : Path :=
  { p.steps with body := trimmed p.steps.body }.path

/-- A path without the idle pieces at its end, or `.` if nothing is left. -/
def bare (p : Path) : Path :=
  if p.shortened.text.isEmpty then ⟨"."⟩ else p.shortened

/-- A name that is neither empty nor `.` counts. -/
theorem isIdle_name {name : String} (present : name ≠ "") (notDot : name ≠ ".") :
    isIdle name.toList = false := by
  have visible : name.toList ≠ ['.'] := fun e => notDot (String.toList_injective e)
  simp [isIdle, present, visible]

/-- The path above an entry is the path that it stands below, without idle pieces at the end. -/
theorem parent?_child {name : String} (legal : IsName name) (notDot : name ≠ ".") (p : Path) :
    (p.child name).parent? = some p.shortened := by
  obtain ⟨body, steps, same⟩ := steps_child legal.2 fun _ : p.text = "" => ⟨legal.1, notDot⟩
  have counts := isIdle_name legal.1 notDot
  simp [parent?, shortened, steps, trimmed_concat counts, same]

/-- The path of an entry has no idle pieces at its end. -/
theorem bare_child {name : String} (legal : IsName name) (notDot : name ≠ ".") (p : Path) :
    (p.child name).bare = p.child name := by
  obtain ⟨body, steps, -⟩ := steps_child legal.2 fun _ : p.text = "" => ⟨legal.1, notDot⟩
  have whole : (p.child name).shortened = p.child name := by
    conv_rhs => rw [← path_steps (p.child name)]
    rw [shortened, steps]
    simp only [trimmed_concat (isIdle_name legal.1 notDot)]
  rw [bare, whole, if_neg (by simpa using text_child_ne legal p)]

/-- No piece that counts is lost. -/
theorem keptPieces_bare (p : Path) : p.bare.keptPieces = p.keptPieces := by
  have left : p.shortened.keptPieces = p.keptPieces := by
    rw [shortened, keptPieces_path fun piece h => notMem_of_mem_steps ((prefix_trimmed _).subset h),
      filter_trimmed, ← keptPieces_eq]
  unfold bare
  split
  · rename_i empty
    have nothing : p.shortened = ⟨""⟩ := congrArg Path.mk (String.isEmpty_iff.mp empty)
    rw [← left, nothing]
    decide +kernel
  · exact left

/-- The characters that are left are the first ones of the path. -/
theorem prefix_chars_shortened (p : Path) : p.shortened.chars <+: p.chars := by
  have whole : p.chars = p.steps.path.chars := by rw [path_steps]
  have body := prefix_trimmed p.steps.body
  have joined : Text.joinWith '/' (if p.steps.dotted then ['.'] :: trimmed p.steps.body
      else trimmed p.steps.body) <+:
      Text.joinWith '/' (if p.steps.dotted then ['.'] :: p.steps.body else p.steps.body) := by
    apply Text.prefix_joinWith
    split
    · exact List.prefix_cons_inj ['.'] |>.mpr body
    · exact body
  rw [whole]
  simpa [shortened, Steps.path, chars] using joined

/-- A path of which no piece counts has no steps left. -/
theorem trimmed_steps_eq_nil_iff {p : Path} : trimmed p.steps.body = [] ↔ p.keptPieces = [] := by
  rw [keptPieces_eq, List.map_eq_nil_iff, ← filter_trimmed]
  constructor
  · intro none
    rw [none]
    rfl
  · intro idle
    by_contra left
    obtain ⟨front, piece, all, counts⟩ := exists_trimmed_concat left
    simp [all, counts] at idle

/-- If a piece counts, the bare form ends in the last one that does. -/
theorem bare_of_counts {p : Path} (counts : p.keptPieces ≠ []) :
    p.bare = p.shortened ∧ p.bare.endsInSlash = false := by
  obtain ⟨front, piece, all, busy⟩ :=
    exists_trimmed_concat (mt trimmed_steps_eq_nil_iff.mp counts)
  have present : piece ≠ [] := by
    rintro rfl
    cases busy
  have free : '/' ∉ piece :=
    notMem_of_mem_steps ((prefix_trimmed p.steps.body).subset (by simp [all]))
  have last : piece <:+ p.shortened.chars := by
    have left : p.shortened.chars = (if p.steps.rooted then ['/'] else []) ++
        Text.joinWith '/' ((if p.steps.dotted then ['.'] :: front else front) ++ [piece]) := by
      rw [shortened, all]
      cases dotted : p.steps.dotted <;> simp [Steps.path, chars, dotted]
    rw [left, Text.joinWith_concat]
    exact (List.suffix_append _ _).trans (List.suffix_append _ _)
  have given : p.shortened.text ≠ "" := by
    intro empty
    exact present (List.suffix_nil.mp (by simpa [chars, empty] using last))
  have same : p.bare = p.shortened := if_neg (by simpa using given)
  refine ⟨same, ?_⟩
  rw [same]
  exact endsInSlash_of_suffix last present free

/-- If no piece counts, the bare form is the root or `.`. -/
theorem bare_of_idle {p : Path} (idle : p.keptPieces = []) :
    p.bare = if p.isAbsolute then ⟨"/"⟩ else ⟨"."⟩ := by
  have left : p.shortened = Steps.path { p.steps with body := [] } := by
    rw [shortened, trimmed_steps_eq_nil_iff.mpr idle]
  have rooted := p.rooted_steps
  cases absolute : p.isAbsolute with
  | true =>
    have dotted : p.steps.dotted = false := by simp [steps, absolute]
    rw [bare, left]
    simp [Steps.path, rooted, absolute, dotted, Text.joinWith]
  | false =>
    rw [bare, left]
    cases dotted : p.steps.dotted <;>
      simp [Steps.path, rooted, absolute, dotted, Text.joinWith]

theorem text_bare_ne (p : Path) : p.bare.text ≠ "" := by
  unfold bare
  split
  · decide
  · rename_i given
    simpa using given

/-- Unless no piece of it counts, a path starts where its bare form starts. -/
theorem start_bare {p : Path} (counts : p.keptPieces ≠ []) (dir : Path) :
    p.bare.start dir = p.start dir := by
  obtain ⟨same, noSlash⟩ := bare_of_counts counts
  obtain ⟨more, whole⟩ := p.prefix_chars_shortened
  rw [← same] at whole
  exact (start_of_append whole.symm p.text_bare_ne (.inl noSlash) dir).symm

end FpgaProject.Path
