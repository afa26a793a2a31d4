/-
  The files of a session.

  A registry holds the documents that are open in the editor and the files that
  were read.  The text of an open document is that of the editor; every other
  file is read from the disk.

  * `Registry.openDocument`, `Registry.changeDocument` and
    `Registry.closeDocument` follow the editor;
  * `Registry.readText` is the current text of a file;
  * `Registry.stored?` is the result of an earlier reading, as long as text and
    indentation are the same;
  * `Registry.resolve?` is the file that an import path means;
  * `Registry.render` writes a file that was read.
-/
import IndentedSass.LoadError
import IndentedSass.Printer
import IndentedSass.Text.Edit
import IndentedSass.Workspace.Disk
import IndentedSass.Workspace.Import

namespace IndentedSass

/-- A document that is open in the editor. -/
structure Document where
  /-- Its text. -/
  text : Text
  /-- How many times it was opened. -/
  openings : Nat
  /-- The number that the editor gives to this state of the text. -/
  version : Int
  deriving DecidableEq, Repr

/-- A file that was read. -/
structure StoredFile where
  /-- The text that was read. -/
  text : Text
  /-- The indentation it was read with. -/
  style : IndentStyle
  /-- What the reading gave. -/
  entry : FileEntry
  deriving Repr

/-- The files of a session. -/
structure Registry where
  /-- The files that were read. -/
  files : Table Uri StoredFile := .empty
  /-- The documents that are open. -/
  documents : Table Uri Document := .empty
  /-- How many times each document was opened, which closing does not change. -/
  openings : Table Uri Nat := .empty
  deriving Repr

namespace Registry

/-! ## Documents -/

/-- Opens a document. -/
def openDocument (g : Registry) (uri : Uri) (text : Text) (version : Int) : Registry :=
  let openings := (g.openings.get? uri).getD 0 + 1
  { g with
    documents := g.documents.insert uri ⟨text, openings, version⟩
    openings := g.openings.insert uri openings }

/-- Changes a document, one change after the other. -/
def changeDocument (g : Registry) (uri : Uri) (changes : List Change) (version : Int) :
    Registry × List Warning :=
  match g.documents.get? uri with
  | some d =>
    let text := changes.foldl Text.applyChange d.text
    ({ g with documents := g.documents.insert uri { d with text, version } }, [])
  | none => (g, [.changeNotOpen uri])

/-- Closes a document. -/
def closeDocument (g : Registry) (uri : Uri) : Registry :=
  { g with documents := g.documents.erase uri }

/-- The text of an open document. -/
def documentText? (g : Registry) (uri : Uri) : Option Text := (g.documents.get? uri).map (·.text)

/-! ## Files -/

/-- What the last reading of a file gave. -/
def entry? (g : Registry) (uri : Uri) : Option FileEntry := (g.files.get? uri).map (·.entry)

/-- Forgets the last reading of a file. -/
def forget (g : Registry) (uri : Uri) : Registry := { g with files := g.files.erase uri }

/-- Keeps what a reading of a file gave. -/
def store (g : Registry) (uri : Uri) (file : StoredFile) : Registry :=
  { g with files := g.files.insert uri file }

/-- What the last reading of a file gave, when it read this text with this
    indentation. -/
def stored? (g : Registry) (uri : Uri) (text : Text) (style : IndentStyle) : Option FileEntry :=
  match g.files.get? uri with
  | some file => if file.text = text ∧ file.style = style then some file.entry else none
  | none => none

/-- The current text of a file. -/
def readText (g : Registry) (disk : Disk) (uri : Uri) : Except LoadError Text :=
  match g.documentText? uri, uri.pathBytes? with
  | some text, _ => .ok text
  | none, none => .error (.notAFile uri)
  | none, some path =>
    match disk.readText? (.ofBytes path) with
    | some text => .ok text
    | none => .error (.io ("Failed to read ".toList ++ Utf8.decodeLossy path))

/-- Writes a file that was read. -/
def render (g : Registry) (uri : Uri) (style : IndentStyle) : Except LoadError Text :=
  match g.entry? uri with
  | some entry => .ok (Tree.render style entry.body)
  | none => .error (.notLoaded uri)

/-! ## Imports -/

/-- Whether there is a file at a path, on disk or in the editor. -/
def hasFile (g : Registry) (disk : Disk) (p : Path) : Bool :=
  disk.hasFile p || g.documents.contains (.ofPath p)

/-- The file that an import path means in the file `base`.  Paths that start
    with `sass:` are those of built-in modules, which are no files. -/
def resolve? (g : Registry) (disk : Disk) (base : Uri) (path : Text) : Option Uri := do
  if path.startsWith "sass:".toList then none
  else
    let directory ← (← base.path?).parent?
    let found ← (directory.join path).candidates.find? (g.hasFile disk)
    return .ofPath found

end Registry

end IndentedSass
