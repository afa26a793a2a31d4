/-
  Internet addresses of four bytes.

  An address is written as up to four numbers with dots between them.  A number
  that starts with `0x` is hexadecimal, another one that starts with `0` octal.
  All numbers but the last are bytes; the last fills the bytes that are left.

  * `Ipv4.isWritten` holds of a host that is meant as an address: its last piece
    is a number;
  * `Ipv4.parse?` reads an address, `Ipv4.text` writes its four bytes.
-/
import IndentedSass.Text.Radix

namespace IndentedSass

/-- An internet address of four bytes. -/
structure Ipv4 where
  /-- The address as a number. -/
  bits : UInt32
  deriving DecidableEq, Repr

namespace Ipv4

/-- Reads one number of an address. -/
def number? : Text → Option Nat
  | [] => none
  | '0' :: 'x' :: digits => Radix.read? 16 digits
  | '0' :: 'X' :: digits => Radix.read? 16 digits
  | '0' :: digits => Radix.read? 8 digits
  | digits => Radix.read? 10 digits

/-- The pieces between the dots.  A dot at the end is not followed by a piece. -/
def pieces (t : Text) : List Text :=
  let pieces := Text.splitOn '.' t
  if pieces.getLast? = some [] then pieces.dropLast else pieces

/-- Whether a host is meant as an address. -/
def isWritten (t : Text) : Bool :=
  match (pieces t).getLast? with
  | some last => (last ≠ [] && last.all Char.isDigit) || (number? last).isSome
  | none => false

/-- The address of some numbers: each before the last is a byte. -/
def ofNumbers? (numbers : List Nat) : Option Ipv4 := do
  let last ← numbers.getLast?
  let bytes := numbers.dropLast
  let places := 4 - bytes.length
  if 4 < numbers.length || bytes.any (255 < ·) || Nat.pow 256 places ≤ last then none
  else some ⟨UInt32.ofNat (bytes.foldl (fun n b => 256 * n + b) 0 * Nat.pow 256 places + last)⟩

/-- Reads an address. -/
def parse? (t : Text) : Option Ipv4 := do
  let numbers ← (pieces t).mapM number?
  ofNumbers? numbers

/-- The four bytes of an address. -/
def bytes (a : Ipv4) : List Nat :=
  let n := a.bits.toNat
  [n >>> 24, n >>> 16 % 256, n >>> 8 % 256, n % 256]

/-- The address as text. -/
def text (a : Ipv4) : Text := List.intercalate ['.'] (a.bytes.map fun b => (toString b).toList)

end Ipv4

end IndentedSass
