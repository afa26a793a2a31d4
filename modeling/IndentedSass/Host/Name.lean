/-
  Host names.

  A host name is a row of labels with dots between them.  Its normal form is in
  ASCII: the characters are mapped and composed, and a label with a character
  above ASCII is written in its ASCII form behind `xn--`.

  * `HostName.readLabel?` reads one label and tells both of its forms;
  * `HostName.normal?` is the normal form of a host name, if it is one.
-/
import IndentedSass.Host.Compose
import IndentedSass.Host.Direction
import IndentedSass.Host.Joining
import IndentedSass.Host.Mapping
import IndentedSass.Host.Punycode

namespace IndentedSass.HostName

/-- A label of a host name. -/
structure Label where
  /-- What it says. -/
  meaning : Text
  /-- How it is written in ASCII. -/
  written : Text
  deriving DecidableEq, Repr

/-- Whether a character is in ASCII. -/
def isAscii (c : Char) : Bool := c.toNat < 128

/-- Whether a character stands for itself in no host name, although it is in
    ASCII: a control character, a blank, or a sign that has a meaning elsewhere
    in a URI. -/
def isReserved (c : Char) : Bool := c ≤ ' ' || c == '\x7f' || "#%/:<>?@[\\]^|".toList.contains c

/-- What the ASCII form of a label starts with. -/
def asciiMark : Text := "xn--".toList

/-- The most characters of a label that is put into ASCII. -/
def maxLabel : Nat := 1000

/-- The most characters of an ASCII form that is read. -/
def maxWritten : Nat := 2000

/-- The label that an ASCII form, given without its mark, stands for.  It has to
    be in normal form itself, and to have a character above ASCII. -/
def readAscii? (digits : Text) : Option Text :=
  if digits = [] || digits.getLast? = some '-' || maxWritten < digits.length ||
      !digits.all isAscii then none
  else (Punycode.decode? digits).filter fun t => t.all Mapping.isKept && compose t == t

/-- Whether the characters of a label may stand together. -/
def isSound (label : Text) : Bool :=
  !label.any isReserved && (label.head?.bind Mark.of?).isNone && Joining.allows label

/-- Reads a label whose characters are mapped and composed. -/
def readLabel? (t : Text) : Option Label :=
  let label? : Option Label :=
    match Text.dropPrefix? asciiMark t with
    | some digits => (readAscii? digits).map (⟨·, t⟩)
    | none =>
      if t.all isAscii then some ⟨t, t⟩
      else if maxLabel < t.length then none
      else some ⟨t, asciiMark ++ Punycode.encode t⟩
  label?.filter fun label => isSound label.meaning

/-- The normal form of a host name. -/
def normal? (t : Text) : Option Text := do
  let mapped ← Mapping.mapText? t
  let labels ← (Text.splitOn '.' (compose mapped)).mapM readLabel?
  let mixed := labels.any fun label => Direction.isMixed label.meaning
  if mixed && !labels.all fun label => Direction.allows label.meaning then none
  else some (List.intercalate ['.'] (labels.map Label.written))

end IndentedSass.HostName
