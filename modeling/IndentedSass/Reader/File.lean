/-
  Reading a file.

  `readFile` reads the lines of a text one after the other.  Reading never
  fails: what is malformed becomes a diagnostic.  `readDetached` reads a file
  for which no other files are known.
-/
import IndentedSass.Reader.Line

namespace IndentedSass

namespace Reading

variable {σ : Type}

/-- Reads lines, the first of which is at an index. -/
def readLines (resolver : Resolver σ) : Reading σ → Nat → List Text → Reading σ
  | g, _, [] => g
  | g, index, line :: rest =>
    readLines resolver (g.readLine resolver index line.dropReturn) (index + 1) rest

/-- Ends a reading: blank lines that still wait go to the top level. -/
def finish (g : Reading σ) : Reading σ := { g with reader := g.reader.flushBlanks [] }

/-- The tree and the problems of a reading. -/
def entry (g : Reading σ) : FileEntry := ⟨g.reader.nodes, g.reader.diagnostics⟩

end Reading

/-- Reads a file.  The files it imports are loaded as their lines are reached,
    so their variables are visible to the lines that follow. -/
def readFile {σ : Type} (resolver : Resolver σ) (files : σ) (uri : Uri) (style : IndentStyle)
    (text : Text) : Reading σ :=
  (Reading.readLines resolver ⟨.start uri style, files, []⟩ 0 text.lines).finish

/-- Reads a file on its own. -/
def readDetached (uri : Uri) (style : IndentStyle) (text : Text) : FileEntry :=
  (readFile .detached () uri style text).entry

end IndentedSass
