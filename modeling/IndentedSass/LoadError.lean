/-
  What can go wrong around reading.

  Malformed source text is never an error: it gives diagnostics.  The errors
  here come from files, URIs and settings; the warnings are what a session notes
  down while it goes on.
-/
import IndentedSass.Uri

namespace IndentedSass

/-- Why a file or the settings could not be taken. -/
inductive LoadError where
  /-- Reading failed. -/
  | io (message : Text)
  /-- The settings do not have the expected shape. -/
  | settings
  /-- The URI is not that of a file. -/
  | notAFile (uri : Uri)
  /-- The file is already being loaded. -/
  | importCycle (uri : Uri)
  /-- The file was never read. -/
  | notLoaded (uri : Uri)
  deriving DecidableEq, Repr

namespace LoadError

/-- The wording of an error. -/
def message : LoadError → String
  | io message => "IO error: " ++ message.string
  | settings => "JSON error: JSON operation failed"
  | notAFile uri => "URI is not a file path: " ++ uri.string
  | importCycle uri => "Import cycle detected while loading " ++ uri.string
  | notLoaded uri => "File not loaded: " ++ uri.string

/-- The error of a reading that failed for no stated reason. -/
def ioFailed : LoadError := io "IO operation failed".toList

end LoadError

/-- What is noted down while a session goes on. -/
inductive Warning where
  /-- A file was imported while it is being loaded. -/
  | importCycle (uri : Uri)
  /-- The file of an `@import` could not be loaded. -/
  | importFailed (uri : Uri) (error : LoadError)
  /-- The file of a `@use` could not be loaded. -/
  | moduleFailed (uri : Uri) (error : LoadError)
  /-- A change was reported for a document that is not open. -/
  | changeNotOpen (uri : Uri)
  deriving DecidableEq, Repr

namespace Warning

/-- The wording of a warning. -/
def message : Warning → String
  | importCycle uri => "Import cycle detected at " ++ uri.string
  | importFailed uri error => "Failed to load import " ++ uri.string ++ ": " ++ error.message
  | moduleFailed uri error => "Failed to load module " ++ uri.string ++ ": " ++ error.message
  | changeNotOpen uri => "Change for document that is not open: " ++ uri.string

end Warning

end IndentedSass
