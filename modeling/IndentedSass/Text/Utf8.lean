/-
  Texts as bytes.

  * `utf8` is the UTF-8 form of a text;
  * `Utf8.decode?` reads bytes back, and fails on bytes that are no UTF-8;
  * `Utf8.decodeLossy` puts the replacement character where a sequence is not
    well formed: one for each longest beginning of a well formed sequence, or
    for a single byte that starts none.

  Both readers take one sequence at a time (`Utf8.next`), which never gives back
  a byte (`Utf8.next_length`).
-/
import IndentedSass.Text.Basic

namespace IndentedSass

/-- The UTF-8 form of a text. -/
def Text.utf8 (t : Text) : List UInt8 := t.flatMap String.utf8EncodeChar

namespace Utf8

/-- A byte that continues a sequence. -/
def isTail (b : UInt8) : Bool := 0x80 ≤ b && b ≤ 0xBF

/-- Whether `b` may be the second byte of a sequence that starts with `a`. -/
def isSecond (a b : UInt8) : Bool :=
  if a = 0xE0 then 0xA0 ≤ b && b ≤ 0xBF
  else if a = 0xED then 0x80 ≤ b && b ≤ 0x9F
  else if a = 0xF0 then 0x90 ≤ b && b ≤ 0xBF
  else if a = 0xF4 then 0x80 ≤ b && b ≤ 0x8F
  else isTail b

/-- The value of a sequence: the low bits of its first byte and six bits of
    each byte after it. -/
def scalar (lead : Nat) (tails : List UInt8) : Char :=
  Char.ofNat (tails.foldl (fun n b => n * 64 + b.toNat % 64) lead)

/-- Reads one sequence that starts with `a`: its character, or none for bytes
    that start no character, and the bytes that follow. -/
def next (a : UInt8) (rest : List UInt8) : Option Char × List UInt8 :=
  if a < 0x80 then (some (Char.ofNat a.toNat), rest)
  else if a < 0xC2 || 0xF4 < a then (none, rest)
  else match rest with
    | [] => (none, [])
    | b :: rest₁ =>
      if !isSecond a b then (none, b :: rest₁)
      else if a < 0xE0 then (some (scalar (a.toNat % 32) [b]), rest₁)
      else match rest₁ with
        | [] => (none, [])
        | c :: rest₂ =>
          if !isTail c then (none, c :: rest₂)
          else if a < 0xF0 then (some (scalar (a.toNat % 16) [b, c]), rest₂)
          else match rest₂ with
            | [] => (none, [])
            | d :: rest₃ =>
              if !isTail d then (none, d :: rest₃)
              else (some (scalar (a.toNat % 8) [b, c, d]), rest₃)

theorem next_length (a : UInt8) (rest : List UInt8) : (next a rest).2.length ≤ rest.length := by
  unfold next
  repeat' split
  all_goals first
    | exact Nat.le_refl _
    | simp only [List.length_cons]; omega

/-- The characters of a sequence of bytes; none marks bytes that are no
    character. -/
def decode : List UInt8 → List (Option Char)
  | [] => []
  | a :: rest =>
    (next a rest).1 :: decode (next a rest).2
termination_by bytes => bytes.length
decreasing_by
  have := next_length a rest
  simp only [List.length_cons]
  omega

/-- The text of bytes that are UTF-8. -/
def decode? (bytes : List UInt8) : Option Text := (decode bytes).mapM id

/-- The text of bytes, with U+FFFD for what is not UTF-8. -/
def decodeLossy (bytes : List UInt8) : Text := (decode bytes).map fun c => c.getD '\ufffd'

end Utf8

end IndentedSass
