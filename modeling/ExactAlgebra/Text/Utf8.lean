/-!
# UTF-8

Texts from bytes. A character has one to four bytes: the first one says how many follow and how low
or high the second one may be. Bytes that are no character give the replacement character, once for
every longest beginning of a character that is not completed, and once for every other byte.

## Main definitions

* `Unfinished` — a character some of whose bytes are still to come;
* `firstByte?`, `Unfinished.next?` — what a byte begins, and what it continues;
* `decodeUtf8` — the text of any bytes.
-/

namespace ExactAlgebra.Text

/-- **An unfinished character** — the number of bytes to come, the least and the greatest value of
the next one, and the number that the bytes so far write. -/
structure Unfinished where
  missing : Nat
  low : Nat
  high : Nat
  value : Nat

/-- The character that a byte begins. -/
def firstByte? (b : Nat) : Option Unfinished :=
  if b ≤ 0x7F then some ⟨0, 0x80, 0xBF, b⟩
  else if 0xC2 ≤ b ∧ b ≤ 0xDF then some ⟨1, 0x80, 0xBF, b - 0xC0⟩
  else if b = 0xE0 then some ⟨2, 0xA0, 0xBF, 0⟩
  else if b = 0xED then some ⟨2, 0x80, 0x9F, 0xD⟩
  else if 0xE1 ≤ b ∧ b ≤ 0xEF then some ⟨2, 0x80, 0xBF, b - 0xE0⟩
  else if b = 0xF0 then some ⟨3, 0x90, 0xBF, 0⟩
  else if 0xF1 ≤ b ∧ b ≤ 0xF3 then some ⟨3, 0x80, 0xBF, b - 0xF0⟩
  else if b = 0xF4 then some ⟨3, 0x80, 0x8F, 4⟩
  else none

/-- The character after one more byte, if that byte continues it. -/
def Unfinished.next? (u : Unfinished) (b : Nat) : Option Unfinished :=
  if u.low ≤ b ∧ b ≤ u.high then some ⟨u.missing - 1, 0x80, 0xBF, 64 * u.value + (b - 0x80)⟩
  else none

/-- The character that stands for bytes that are none. -/
def replacement : Char :=
  '\uFFFD'

/-- A character that may be finished: if so it is written, and nothing is left unfinished. -/
def Unfinished.finish (u : Unfinished) : List Char × Option Unfinished :=
  if u.missing = 0 then ([Char.ofNat u.value], none) else ([], some u)

/-- The characters that a byte completes, with no unfinished one in front of it, and the unfinished
one behind it. -/
def decodeFirst (b : Nat) : List Char × Option Unfinished :=
  match firstByte? b with
  | some u => u.finish
  | none => ([replacement], none)

/-- The characters that a byte completes, and the unfinished one behind it. -/
def decodeByte (unfinished : Option Unfinished) (b : Nat) : List Char × Option Unfinished :=
  match unfinished with
  | none => decodeFirst b
  | some u =>
    match u.next? b with
    | some longer => longer.finish
    | none => let (cs, left) := decodeFirst b; (replacement :: cs, left)

/-- The characters of bytes behind an unfinished character. -/
def decodeFrom (unfinished : Option Unfinished) : List Nat → List Char
  | [] => if unfinished.isSome then [replacement] else []
  | b :: rest => let (cs, left) := decodeByte unfinished b; cs ++ decodeFrom left rest

/-- **The text of bytes**, with replacement characters for those that are none. -/
def decodeUtf8 (bytes : List Nat) : List Char :=
  decodeFrom none bytes

/-- The bytes of a character. -/
def encodeChar (c : Char) : List Nat :=
  let n := c.toNat
  if n < 0x80 then [n]
  else if n < 0x800 then [0xC0 + n / 64, 0x80 + n % 64]
  else if n < 0x10000 then [0xE0 + n / 4096, 0x80 + n / 64 % 64, 0x80 + n % 64]
  else [0xF0 + n / 262144, 0x80 + n / 4096 % 64, 0x80 + n / 64 % 64, 0x80 + n % 64]

/-- **The bytes of a text.** -/
def encodeUtf8 (cs : List Char) : List Nat :=
  cs.flatMap encodeChar

example : decodeUtf8 (encodeUtf8 ['a', 'é', '√', '😀']) = ['a', 'é', '√', '😀'] := by
  decide +kernel
example : decodeUtf8 [0xC0, 0xAF] = [replacement, replacement] := by decide +kernel
example : decodeUtf8 [0xE2, 0x88, 0x61] = [replacement, 'a'] := by decide +kernel
example : decodeUtf8 [0xED, 0xA0, 0x80] = [replacement, replacement, replacement] := by
  decide +kernel
example : decodeUtf8 [0xF4, 0x8F, 0xBF, 0xBF] = [Char.ofNat 0x10FFFF] := by decide +kernel

end ExactAlgebra.Text
