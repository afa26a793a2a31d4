/-
  Internet addresses of eight pieces.

  The pieces are written in hexadecimal with colons between them.  Two colons
  stand for one or more pieces that are 0, and the last two pieces can be written
  as four bytes with dots between them.

  * `Ipv6.parse?` reads an address;
  * `Ipv6.text` writes it, with two colons for the longest run of at least two
    pieces that are 0, the first one of several.
-/
import IndentedSass.Text.Radix

namespace IndentedSass

/-- An internet address of eight pieces. -/
structure Ipv6 where
  /-- The pieces, from the first to the last. -/
  pieces : List UInt16
  /-- There are eight of them. -/
  length_pieces : pieces.length = 8
  deriving DecidableEq, Repr

namespace Ipv6

/-! ## Reading -/

/-- Reads a piece of one to four hexadecimal digits. -/
def piece? (t : Text) : Option UInt16 :=
  if t = [] || 4 < t.length then none else (Radix.read? 16 t).map UInt16.ofNat

/-- Reads a byte in decimal, without zeros before it. -/
def byte? (t : Text) : Option Nat :=
  if t = [] || (t.head? = some '0' && t.length ≠ 1) then none
  else (Radix.read? 10 t).filter (· < 256)

/-- Reads four bytes as two pieces. -/
def dotted? (t : Text) : Option (List UInt16) := do
  match ← (Text.splitOn '.' t).mapM byte? with
  | [a, b, c, d] => some [UInt16.ofNat (256 * a + b), UInt16.ofNat (256 * c + d)]
  | _ => none

/-- Reads pieces with a colon between them; the last may be four bytes if
    `dots` says so. -/
def run? (dots : Bool) (t : Text) : Option (List UInt16) :=
  if t = [] then some []
  else
    let written := Text.splitOn ':' t
    let last := written.getLast?.getD []
    if dots && last.contains '.' then do
      return (← written.dropLast.mapM piece?) ++ (← dotted? last)
    else written.mapM piece?

/-- The text before and after the first two colons. -/
def splitGap? : Text → Option (Text × Text)
  | [] => none
  | ':' :: ':' :: rest => some ([], rest)
  | c :: rest => (splitGap? rest).map fun (a, b) => (c :: a, b)

/-- The address of eight pieces. -/
def ofPieces? (pieces : List UInt16) : Option Ipv6 :=
  if h : pieces.length = 8 then some ⟨pieces, h⟩ else none

/-- Reads an address. -/
def parse? (t : Text) : Option Ipv6 :=
  match splitGap? t with
  | none => do ofPieces? (← run? true t)
  | some (before, after) => do
    let front ← run? false before
    let back ← run? true after
    let missing := 8 - (front.length + back.length)
    if missing = 0 then none
    else ofPieces? (front ++ List.replicate missing 0 ++ back)

/-! ## Writing -/

/-- A run of pieces that are 0: where it starts, and its length. -/
abbrev Zeros := Nat × Nat

/-- The longest run of pieces that are 0, the first one of several. -/
def longestZeros (pieces : List UInt16) : Zeros :=
  (List.range pieces.length).foldl (fun best i =>
    let size := ((pieces.drop i).takeWhile (· == 0)).length
    if best.2 < size then (i, size) else best) (0, 0)

/-- Pieces with a colon between them. -/
def written (pieces : List UInt16) : Text :=
  List.intercalate [':'] (pieces.map fun p => Nat.toDigits 16 p.toNat)

/-- The address as text. -/
def text (a : Ipv6) : Text :=
  let (start, size) := longestZeros a.pieces
  if size < 2 then written a.pieces
  else written (a.pieces.take start) ++ [':', ':'] ++ written (a.pieces.drop (start + size))

end Ipv6

end IndentedSass
