import FpgaProject.Shell.Format
import FpgaProject.Shell.Regex
import FpgaProject.Shell.Utility.Basic

/-!
Programs that work on the lines of texts.
-/

namespace FpgaProject.Shell

/-- A program that prints what it makes of its texts, which are taken as one. -/
def onText (letters valued : String) (change : Options → String → String)
    (complain : String → String → String := Session.plainly) : Utility :=
  withOptions letters valued fun name o s =>
    let (s, texts) := s.readAll name complain o.operands
    s.print (change o (String.join texts))

def cat : Utility :=
  onText "" "" fun _ text => text

/-! ### Parts and counts -/

def endedLines (s : String) : List String :=
  let all := linesOf s
  if s.endsWith "\n" then all.map (· ++ "\n")
  else all.dropLast.map (· ++ "\n") ++ all.getLast?.toList

/-- A program that prints some of the lines of each of its texts; without a word on how many, ten of
them. A first word that is a number counts as well. -/
def printingPart (part : String → List String → List String) : Utility := fun name args =>
  let args := match args.head?.map String.toList with
    | some ('-' :: c :: rest) =>
      if c.isDigit then "-n" :: String.ofList (c :: rest) :: args.tail else args
    | _ => args
  withOptions "" "n" (fun name o s =>
    let complain (file reason : String) : String :=
      "cannot open " ++ inQuotes file ++ " for reading: " ++ reason
    let (s, texts) := s.readAll name complain o.operands
    s.print (String.join (texts.flatMap fun t =>
      part ((o.value? 'n').getD "10") (endedLines t)))) 1 name args

def head : Utility :=
  printingPart fun n lines =>
    match n.toList with
    | '-' :: digits => lines.take (lines.length - ofDigits 10 digits)
    | digits => lines.take (ofDigits 10 digits)

def tail : Utility :=
  printingPart fun n lines =>
    match n.toList with
    | '+' :: digits => lines.drop (ofDigits 10 digits - 1)
    | digits => lines.drop (lines.length - ofDigits 10 digits)

/-- What a text amounts to, by the letter that asks for it. -/
def countOf (text : String) : Char → Nat
  | 'l' => text.toList.count '\n'
  | 'w' => (text.toList.splitBy fun a b => a.isWhitespace = b.isWhitespace).countP
      fun part => part.head?.any (!·.isWhitespace)
  | _ => text.length

def wc : Utility :=
  withOptions "lwc" "" fun name o s =>
    let wanted := ['l', 'w', 'c'].filter fun c => o.given.isEmpty || o.has c
    let (s, texts) := s.readAll name Session.plainly o.operands
    let counted := texts.map fun t => wanted.map (countOf t)
    let total := wanted.map (countOf (String.join texts))
    let width := if wanted.length = 1 && texts.length ≤ 1 then 1
      else if o.operands.isEmpty then 7
      else (toString (texts.foldl (fun n t => n + t.length) 0)).length
    let line (counts : List Nat) (what : String) : String :=
      " ".intercalate (counts.map fun n => padLeft width (toString n)) ++
        (if what.isEmpty then "" else " " ++ what)
    let lines := List.zipWith line counted (if o.operands.isEmpty then [""] else o.operands)
    s.print (unlines (lines ++ if 1 < o.operands.length then [line total "total"] else []))

/-! ### Sorting -/

/-- What lines are sorted by: fields from one on to another one, as numbers or as texts. -/
structure SortKey where
  first : Nat
  last : Option Nat := none
  numeric : Bool := false
  reversed : Bool := false

/-- Reads what lines are sorted by; what it does not say is as it is otherwise. -/
def SortKey.ofText (usual : SortKey) (s : String) : SortKey :=
  let (front, back) := s.toList.span (· ≠ ',')
  let letters := (front ++ back).filter Char.isAlpha
  let digits := back.tail.takeWhile Char.isDigit
  { first := ofDigits 10 (front.takeWhile Char.isDigit)
    last := if digits.isEmpty then none else some (ofDigits 10 digits)
    numeric := if letters.isEmpty then usual.numeric else letters.contains 'n'
    reversed := if letters.isEmpty then usual.reversed else letters.contains 'r' }

/-- The fields of a line: between separators, or each with the blanks in front of it. -/
def fieldsForSort (separator : Option Char) (line : String) : List (List Char) :=
  match separator with
  | some c => Text.splitAt c line.toList
  | none => line.toList.splitBy fun a b => a = ' ' || b ≠ ' '

def leadingNumber (s : List Char) : Rat :=
  let s := s.dropWhile (· = ' ')
  let (sign, digits) : Int × List Char := if s.head? = some '-' then (-1, s.tail) else (1, s)
  let front := digits.takeWhile Char.isDigit
  let back := match digits.drop front.length with
    | '.' :: rest => rest.takeWhile Char.isDigit
    | _ => []
  mkRat (sign * ofDigits 10 (front ++ back)) (Nat.pow 10 back.length)

def SortKey.compare (k : SortKey) (separator : Option Char) (a b : String) : Ordering :=
  let part (line : String) : List Char :=
    let fields := fieldsForSort separator line
    let fields := (k.last.map fields.take).getD fields
    (separator.toList).intercalate (fields.drop (k.first - 1))
  let (x, y) := (part a, part b)
  let (m, n) := (leadingNumber x, leadingNumber y)
  let r := if !k.numeric then Ord.compare (String.ofList x) (String.ofList y)
    else if m < n then .lt else if n < m then .gt else .eq
  if k.reversed then r.swap else r

/-- Sorts lines. Those that are the same to all keys are sorted as texts, or only one is kept. -/
def sortedText (o : Options) (text : String) : String :=
  let usual : SortKey := { first := 1, numeric := o.has 'n', reversed := o.has 'r' }
  let keys := if o.has 'k' then (o.values 'k').map usual.ofText else [usual]
  let separator := (o.value? 't').bind (·.toList.head?)
  let byKeys (a b : String) : Ordering :=
    (keys.map fun k => k.compare separator a b).foldl Ordering.then .eq
  let whole (a b : String) : Ordering :=
    if o.has 'u' then .eq else if o.has 'r' then compare b a else compare a b
  let sorted := (linesOf text).mergeSort fun a b => ((byKeys a b).then (whole a b)).isLE
  unlines <|
    if o.has 'u' then (sorted.splitBy fun a b => byKeys a b = .eq).filterMap List.head?
    else sorted

def sort : Utility :=
  onText "nru" "kt" sortedText fun file reason => "cannot read: " ++ file ++ ": " ++ reason

/-- Prints lines that follow the same one only once. -/
def uniq : Utility :=
  onText "cdu" "" fun o text =>
    let groups := ((linesOf text).splitBy fun a b => a = b).filter fun g =>
      (!o.has 'd' || 1 < g.length) && (!o.has 'u' || g.length = 1)
    unlines (groups.map fun g =>
      (if o.has 'c' then padLeft 7 (toString g.length) ++ " " else "") ++ g.headD "")

/-! ### Columns -/

def inRanges (ranges : String) (n : Nat) : Bool :=
  (Text.splitAt ',' ranges.toList).any fun r =>
    let (low, high) := r.span (· ≠ '-')
    let least := ofDigits 10 low
    least ≤ n && if high = [] then n = least else high = ['-'] || n ≤ ofDigits 10 high.tail

/-- Prints some of the fields of each line, or some of its bytes. A line without a separator is
printed as it is. -/
def cut : Utility :=
  onText "s" "dfc" fun o text =>
    let kept (ranges : String) (parts : List (List Char)) : List (List Char) :=
      (parts.zipIdx 1).filterMap fun (p, n) => if inRanges ranges n then some p else none
    let separator := ((o.value? 'd').bind (·.toList.head?)).getD '\t'
    unlines <| (linesOf text).filterMap fun line =>
      match o.value? 'c', o.value? 'f' with
      | some ranges, _ => some (String.ofList (kept ranges (line.toList.map ([·]))).flatten)
      | _, some ranges =>
        if !line.toList.contains separator then if o.has 's' then none else some line
        else
          let parts := kept ranges (Text.splitAt separator line.toList)
          some (String.ofList ([separator].intercalate parts))
      | none, none => some line

def joinedInTurn (signs : List Char) (texts : List String) : String :=
  String.join ((texts.zipIdx).map fun (t, n) =>
    (if n = 0 then "" else ((signs[(n - 1) % signs.length]?).map String.singleton).getD "") ++ t)

/-- Joins the lines of each text, or those of all texts that stand side by side. -/
def paste : Utility :=
  withOptions "s" "d" fun name o s =>
    let signs := ((o.value? 'd').getD "\t").toList
    let (s, texts) := s.readAll name Session.plainly o.operands
    let columns := texts.map linesOf
    let rows := if o.has 's' then columns
      else (List.range ((columns.map List.length).foldl max 0)).map fun n =>
        columns.map fun lines => lines.getD n ""
    s.print (unlines (rows.map (joinedInTurn signs)))

/-! ### Characters -/

/-- The characters that a set for `tr` stands for, at most `fuel` parts of it. -/
def charactersOf : Nat → List Char → List Char
  | 0, _ | _, [] => []
  | fuel + 1, '[' :: ':' :: rest =>
    let name := rest.takeWhile Char.isAlpha
    let p := (letterClass? (String.ofList name)).getD fun _ => false
    ((List.range 256).map Char.ofNat).filter p ++ charactersOf fuel (rest.drop (name.length + 2))
  | fuel + 1, s =>
    let one (s : List Char) : List Char × List Char :=
      match s with
      | '\\' :: rest =>
        let (c, left) := Format.escape rest
        (c.reverse.take 1, left)
      | s => (s.take 1, s.tail)
    let (first, rest) := one s
    match rest with
    | '-' :: d :: behind =>
      let (last, rest) := one (d :: behind)
      let low := (first.headD '\x00').toNat
      let high := (last.headD '\x00').toNat
      (List.range' low (high + 1 - low)).map Char.ofNat ++ charactersOf fuel rest
    | rest => first ++ charactersOf fuel rest

/-- A text in which characters that pass a test do not follow themselves. -/
def squeezed (p : Char → Bool) (s : List Char) : List Char :=
  (s.splitBy fun a b => a = b && p a).filterMap List.head?

/-- Puts characters in place of others, takes them away, or prints them only once in a row. -/
def tr : Utility :=
  withOptions "cCds" "" fun name o s =>
    let set (s : String) : List Char := charactersOf s.length s.toList
    match o.operands with
    | [] => missing name "operand" s
    | first :: more =>
      let given := set first
      let chosen := if o.has 'c' || o.has 'C' then
          ((List.range 256).map Char.ofNat).filter (!given.contains ·)
        else given
      let others := (more.head?.map set).getD []
      let last := others.getLast?
      let change (c : Char) : Char :=
        match chosen.idxOf? c with
        | some n => ((others[n]?).or last).getD c
        | none => c
      let text := if o.has 'd' then s.input.toList.filter (!chosen.contains ·)
        else s.input.toList.map change
      let text := if o.has 's' then
          squeezed (if others.isEmpty then chosen else others).contains text
        else text
      { s with input := "" }.print (String.ofList text)

/-! ### Searching -/

/-- What is searched for: expressions, of which one must match, or texts. -/
def searched (o : Options) (patterns : List String) : Except String (List Regex) :=
  (patterns.flatMap fun p => Text.splitAt '\n' p.toList).mapM fun p =>
    if o.has 'F' then .ok (p.foldr (fun c r => .sequence (.one c) r) .empty)
    else Regex.ofText (o.has 'E') (String.ofList p)

/-- Prints the lines in which something is found, or those in which it is not. -/
def grep : Utility :=
  withOptions "cnqvEFhl" "e" (fun name o s =>
    let patterns := if o.has 'e' then o.values 'e' else o.operands.take 1
    let files := if o.has 'e' then o.operands else o.operands.drop 1
    match searched o patterns with
    | .error reason => s.fail (name ++ ": " ++ reason) 2
    | .ok rs =>
      let (s, texts) := s.readAll name Session.plainly files
      let s := { s with status := if s.status = 0 then 1 else 2 }
      let titled := 1 < files.length && !o.has 'h'
      (texts.zip (if files.isEmpty then ["-"] else files)).foldl (fun (s : Session) (text, file) =>
        let found := ((linesOf text).zipIdx 1).filter fun (line, _) =>
          rs.any (·.isIn line) != o.has 'v'
        let front := if titled then file ++ ":" else ""
        let s := if found.isEmpty || s.status = 2 then s else { s with status := 0 }
        if o.has 'q' then s
        else if o.has 'c' then s.printLine (front ++ toString found.length)
        else if o.has 'l' then if found.isEmpty then s else s.printLine file
        else s.print (unlines (found.map fun (line, n) =>
          front ++ (if o.has 'n' then toString n ++ ":" else "") ++ line))) s) 2

end FpgaProject.Shell
