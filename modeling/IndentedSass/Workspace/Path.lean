/-
  Paths of files.

  A path leads from the root directory through the names of directories to a
  file or a directory.  A name is a sequence of bytes.  The names `.` and the
  empty ones between two slashes lead nowhere and are left out; `..` is kept,
  since it leads back only from a directory that exists.

  * `Path.ofBytes` reads a path, `Path.join` goes on from one along a relative
    path;
  * `Uri.pathBytes?` is the path that a URI stands for, as it is written;
  * `Uri.ofPath` is the URI of a path.
-/
import IndentedSass.Uri

namespace IndentedSass

/-- The name of a file or directory, as bytes. -/
abbrev FileName := List UInt8

namespace FileName

/-- The name with a given spelling. -/
def ofString (s : String) : FileName := Text.utf8 s.toList

/-- The byte of the slash, which separates names. -/
def slash : UInt8 := 0x2F

/-- The byte of the dot, which separates the extension from the rest of a name. -/
def dot : UInt8 := 0x2E

/-- The name that stands for the parent directory. -/
def up : FileName := [dot, dot]

/-- Whether a name leads nowhere: it is empty or `.`. -/
def isStay (n : FileName) : Bool := n == [] || n == [dot]

/-- What follows the last dot of a name, when there is a dot that is not the
    first byte. -/
def extension? (n : FileName) : Option (List UInt8) :=
  let tail := n.reverse.takeWhile (· ≠ dot)
  match n.reverse.dropWhile (· ≠ dot) with
  | _ :: _ :: _ => some tail.reverse
  | _ => none

end FileName

/-- A path from the root directory. -/
structure Path where
  /-- The names on the way. -/
  names : List FileName
  /-- Whether it is written with a slash at its end, so that it can only lead to
      a directory. -/
  isDirectory : Bool
  deriving DecidableEq, Repr

namespace Path

/-- The most bytes that a path can have. -/
def maxBytes : Nat := 4095

/-- Reads a path. -/
def ofBytes (bytes : List UInt8) : Path :=
  let pieces := bytes.splitOn FileName.slash
  ⟨pieces.filter fun n => !n.isStay, (pieces.getLast?.map FileName.isStay).getD true⟩

/-- The path that a text means when it is read in the directory `p`: a text that
    starts with a slash starts from the root again. -/
def join (p : Path) (t : Text) : Path :=
  let q := ofBytes t.utf8
  if t.head? = some '/' then q else { q with names := p.names ++ q.names }

/-- The directory that a path leads through last; the root directory is in none. -/
def parent? (p : Path) : Option Path :=
  if p.names = [] then none else some ⟨p.names.dropLast, true⟩

/-- The last name of a path, unless that leads back. -/
def fileName? (p : Path) : Option FileName := p.names.getLast?.filter (· ≠ FileName.up)

/-- The path with another last name. -/
def withFileName (p : Path) (n : FileName) : Path := ⟨p.names.dropLast ++ [n], false⟩

/-- The path of a file in the directory `p`. -/
def child (p : Path) (n : FileName) : Path := ⟨p.names ++ [n], false⟩

/-- The number of bytes of a path. -/
def size (p : Path) : Nat := p.names.foldr (fun n size => n.length + 1 + size) 0

end Path

namespace Uri

/-- The URI of a path. -/
def ofPath (p : Path) : Uri where
  scheme := "file".toList
  authority := some (.ofHost [])
  path :=
    if p.names = [] then ['/']
    else p.names.flatMap fun n => '/' :: Percent.encodeBytes isFileNameChar n
  query := none
  fragment := none

/-- The path that a URI stands for, as it is written.  Only a URI of this
    computer stands for one.  A name that is a letter and a colon is that of a
    drive, which is a directory. -/
def pathBytes? (u : Uri) : Option (List UInt8) :=
  if u.path.head? = some '/' && ["", "localhost"].contains u.host.string then
    let bytes := Percent.decode u.path
    let isDrive : Bool := match bytes.reverse with
      | mark :: letter :: _ :: _ =>
        (mark == 0x3A || mark == 0x7C) && (Char.ofNat letter.toNat).isAlpha
      | _ => false
    some (if isDrive then bytes ++ [FileName.slash] else bytes)
  else none

/-- The path that a URI stands for. -/
def path? (u : Uri) : Option Path := u.pathBytes?.map Path.ofBytes

end Uri

end IndentedSass
