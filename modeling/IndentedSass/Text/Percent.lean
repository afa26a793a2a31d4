/-
  Percent encoding.

  In a URI a character that may not stand for itself is written as its UTF-8
  bytes, each as `%` and two hexadecimal digits.

  * `Percent.encode keep` writes a text, leaving the characters that satisfy
    `keep` as they are, and `Percent.encodeBytes keep` writes bytes;
  * `Percent.decode` gives the bytes that an encoded text stands for; a `%` that
    is not followed by two digits stands for itself.
-/
import IndentedSass.Text.Radix
import IndentedSass.Text.Utf8

namespace IndentedSass.Percent

/-- The hexadecimal digit of a number below 16, in upper case. -/
def digit (n : Nat) : Char := ("0123456789ABCDEF".toList[n]?).getD '0'

/-- A byte in percent form. -/
def byte (b : UInt8) : Text := ['%', digit (b.toNat / 16), digit (b.toNat % 16)]

/-- The text with every character in percent form that does not satisfy `keep`. -/
def encode (keep : Char → Bool) (t : Text) : Text :=
  t.flatMap fun c => if keep c then [c] else (Text.utf8 [c]).flatMap byte

/-- The text of bytes, with those in percent form that are no character that
    satisfies `keep`. -/
def encodeBytes (keep : Char → Bool) (bytes : List UInt8) : Text :=
  bytes.flatMap fun b =>
    if b < 0x80 && keep (Char.ofNat b.toNat) then [Char.ofNat b.toNat] else byte b

/-- The bytes that an encoded text stands for. -/
def decode : Text → List UInt8
  | [] => []
  | '%' :: a :: b :: rest =>
    match Radix.digit? 16 a, Radix.digit? 16 b with
    | some x, some y => UInt8.ofNat (16 * x + y) :: decode rest
    | _, _ => Text.utf8 ['%'] ++ decode (a :: b :: rest)
  | c :: rest => Text.utf8 [c] ++ decode rest

end IndentedSass.Percent
