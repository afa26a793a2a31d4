/-
  Paths of URIs, segment by segment.

  A path is read one segment after the other.  A segment that stands for the
  current directory is left out, one that stands for the parent directory takes
  the segment before it with it; the name of a drive (a letter and a colon or a
  bar) stays.  In a `file` URI the name of a drive at the start of the path is
  written with a colon, and the file is on no other host.

  Tabs and line breaks in a URI mean nothing, with one exception: in a `file` URI
  they end the name of a drive at the start of the path.
-/
import IndentedSass.Uri.Basic

namespace IndentedSass.Uri

/-- A character that means nothing in a URI. -/
def isBreak (c : Char) : Bool := c == '\t' || c == '\n' || c == '\r'

/-- The text without tabs and line breaks. -/
def dropBreaks (t : Text) : Text := t.filter fun c => !isBreak c

/-- Whether a segment stands for the current directory. -/
def isDot (segment : Text) : Bool :=
  [".", "%2e", "%2E"].contains segment.string

/-- Whether a segment stands for the parent directory. -/
def isDotDot (segment : Text) : Bool :=
  ["..", "%2e%2e", "%2e%2E", "%2E%2e", "%2E%2E", "%2e.", "%2E.", ".%2e", ".%2E"].contains
    segment.string

/-- Whether a segment is the name of a drive. -/
def isDrive : Text → Bool
  | [letter, mark] => letter.isAlpha && (mark == ':' || mark == '|')
  | _ => false

/-- The name of a drive with a colon. -/
def driveName (segment : Text) : Text := segment.take 1 ++ [':']

/-- The name of a drive, and what a break sets off from it in one segment. -/
def splitDrive? (segment : Text) : Option (Text × Text) :=
  match segment.dropWhile isBreak with
  | letter :: rest => match rest.dropWhile isBreak with
    | ':' :: c :: rest =>
      if letter.isAlpha && isBreak c && dropBreaks rest ≠ [] then
        some ([letter, ':'], dropBreaks rest)
      else none
    | _ => none
  | [] => none

/-- The segments of a path that are read so far. -/
structure Trail where
  /-- The segments, in percent form. -/
  kept : List Text
  /-- Whether the first one was read as the name of a drive. -/
  onDrive : Bool
  deriving DecidableEq, Repr

namespace Trail

/-- The path before its first segment. -/
def start : Trail := ⟨[], false⟩

/-- The path as text. -/
def text (p : Trail) : Text := '/' :: List.intercalate ['/'] p.kept

/-- One more segment. -/
def add (p : Trail) (segment : Text) : Trail := { p with kept := p.kept ++ [segment] }

/-- The path to the parent directory; a drive has none. -/
def parent (p : Trail) : Trail :=
  if (p.kept.getLast?.map isDrive).getD false then p else { p with kept := p.kept.dropLast }

/-- The path that ends in a slash if it ends here. -/
def close (isLast : Bool) (p : Trail) : Trail := if isLast then p.add [] else p

/-- Goes on with a segment of a path, as it is written. -/
def push (isFile isLast : Bool) (p : Trail) (written : Text) : Trail :=
  let atStart := isFile && p.kept.isEmpty
  let segment := Percent.encode isPathChar (dropBreaks written)
  match if atStart then splitDrive? written else none with
  | some (drive, rest) => (p.add drive).add (Percent.encode isPathChar rest)
  | none =>
    if isDotDot segment then p.parent.close isLast
    else if isDot segment then p.close isLast
    else if atStart && isDrive segment then ⟨[driveName segment], true⟩
    else p.add segment

/-- Goes on with several segments, the last of which ends the path. -/
def pushAll (isFile : Bool) (p : Trail) : List Text → Trail
  | [] => p
  | segment :: rest => (p.push isFile rest.isEmpty segment).pushAll isFile rest

/-- Reads what follows the first slash of a path.  In a special scheme a
    backslash is a slash. -/
def read (isFile special : Bool) (t : Text) : Trail :=
  let t := if special then t.map fun c => if c = '\\' then '/' else c else t
  start.pushAll isFile (Text.splitOn '/' t)

end Trail

end IndentedSass.Uri
