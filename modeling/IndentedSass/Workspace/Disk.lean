/-
  The files on disk.

  A disk holds directories and files.  A path is followed one name at a time,
  and each name but the last has to be that of a directory that exists, also
  before `..` (`Disk.follow?`).

  * `Disk.read?` gives the bytes of a file, `Disk.readText?` its text;
  * `Disk.makeDirectory`, `Disk.write` and `Disk.remove` change the disk.
-/
import IndentedSass.Workspace.Path
import IndentedSass.Workspace.Table

namespace IndentedSass

/-- The files and directories of a disk, each under the names that lead to it. -/
structure Disk where
  /-- The directories other than the root. -/
  directories : List (List FileName) := []
  /-- The contents of the files. -/
  files : Table (List FileName) (List UInt8) := .empty
  deriving Repr

namespace Disk

/-- Whether a place is a directory. -/
def hasDirectory (d : Disk) (place : List FileName) : Bool :=
  place == [] || d.directories.contains place

/-- The place that names lead to from the place `here`. -/
def follow? (d : Disk) (here : List FileName) : List FileName → Option (List FileName)
  | [] => some here
  | n :: names =>
    if d.hasDirectory here then
      follow? d (if n = FileName.up then here.dropLast else here ++ [n]) names
    else none

/-- The contents of the file at a path. -/
def read? (d : Disk) (p : Path) : Option (List UInt8) :=
  if p.isDirectory || Path.maxBytes < p.size then none
  else (d.follow? [] p.names).bind d.files.get?

/-- Whether there is a file at a path. -/
def hasFile (d : Disk) (p : Path) : Bool := (d.read? p).isSome

/-- The text of the file at a path; there is none when its bytes are no text. -/
def readText? (d : Disk) (p : Path) : Option Text := (d.read? p).bind Utf8.decode?

/-- The disk with a directory and those that it is in. -/
def makeDirectory (d : Disk) (p : Path) : Disk :=
  let places := (List.range (p.names.length + 1)).map p.names.take
  { d with directories := d.directories ++ places.filter fun place => !d.hasDirectory place }

/-- The disk after a file was written, with the directories that it is in. -/
def write (d : Disk) (p : Path) (contents : List UInt8) : Disk :=
  let d := d.makeDirectory ⟨p.names.dropLast, true⟩
  { d with files := d.files.insert p.names contents }

/-- The disk without a file. -/
def remove (d : Disk) (p : Path) : Disk := { d with files := d.files.erase p.names }

end Disk

end IndentedSass
