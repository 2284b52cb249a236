import FpgaProject.Disk.Basic

/-!
Texts as scripts see them.

A script knows bytes and no characters: lengths, patterns and orders are those of bytes. So the
texts within a script are octet texts, in which each character stands for the byte with its number.
Texts are turned into octet texts when they come in, and back when they go out.
-/

namespace FpgaProject.Shell

def octetsOf (raw : List UInt8) : String :=
  String.ofList (raw.map fun b => Char.ofNat b.toNat)

/-- The octet text of a text. -/
def octets (s : String) : String :=
  octetsOf s.toUTF8.toList

def bytesOf (s : String) : List UInt8 :=
  s.toList.map fun c => c.toNat.toUInt8

/-- How many bytes must follow a byte, and between which ones the first of them lies. -/
def followers (b : Nat) : Nat × Nat × Nat :=
  if 0xC2 ≤ b && b ≤ 0xDF then (1, 0x80, 0xBF)
  else if b = 0xE0 then (2, 0xA0, 0xBF)
  else if b = 0xED then (2, 0x80, 0x9F)
  else if 0xE1 ≤ b && b ≤ 0xEF then (2, 0x80, 0xBF)
  else if b = 0xF0 then (3, 0x90, 0xBF)
  else if 0xF1 ≤ b && b ≤ 0xF3 then (3, 0x80, 0xBF)
  else if b = 0xF4 then (3, 0x80, 0x8F)
  else (0, 0, 0)

/-- The bytes at the front that can follow another one: at most `n`, of which the first lies between
given ones. -/
def continuation : Nat → Nat → Nat → List Nat → List Nat
  | n + 1, low, high, b :: rest =>
    if low ≤ b && b ≤ high then b :: continuation n 0x80 0xBF rest else []
  | _, _, _, _ => []

/-- The characters of bytes. What is no character is replaced, one mark for each part that starts
like one. -/
def charsOf : List Nat → List Char
  | [] => []
  | b :: rest =>
    let (n, low, high) := followers b
    let found := continuation n low high rest
    let c :=
      if b < 0x80 then Char.ofNat b
      else if n = 0 || found.length < n then '\ufffd'
      else Char.ofNat (found.foldl (fun c d => c * 64 + d % 64) (b % Nat.pow 2 (6 - n)))
    c :: charsOf (rest.drop found.length)
termination_by s => s.length
decreasing_by simp only [List.length_drop, List.length_cons]; omega

/-- The text of an octet text. -/
def decoded (s : String) : String :=
  String.ofList (charsOf (s.toList.map Char.toNat))

/-- The octet text of what a file holds. -/
def contentOctets : Contents → String
  | .text s => octets s
  | .bytes raw => octetsOf raw

/-- What a file holds whose octet text is given. -/
def contentsOf (s : String) : Contents :=
  .ofBytes (bytesOf s)

end FpgaProject.Shell
