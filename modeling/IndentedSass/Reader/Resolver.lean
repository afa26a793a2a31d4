/-
  Other files, as a reader sees them.

  A reader touches no files itself.  A `Resolver` finds the file that an import
  path means, loads it, and finds the variables of loaded files.  It may answer
  every question differently: it has a state of type `σ`, which goes on with each
  path and each file, and it is told at which place it looks for a variable.
  `Resolver.detached` knows no other files.
-/
import IndentedSass.Indent.Style
import IndentedSass.LoadError
import IndentedSass.Scope

namespace IndentedSass

/-- What loading a file gives. -/
structure LoadOutcome (σ : Type) where
  /-- The state after the loading. -/
  state : σ
  /-- The warnings noted on the way, in order. -/
  warnings : List Warning
  /-- Why the file could not be loaded, if it could not. -/
  error? : Option LoadError

/-- Access to other files. -/
structure Resolver (σ : Type) where
  /-- The file that an import path means, in the file `base`, and the state after
      the question. -/
  resolve : σ → (base : Uri) → (path : Text) → Option Uri × σ
  /-- Loads a file. -/
  load : σ → IndentStyle → Uri → LoadOutcome σ
  /-- Where a loaded file declares a variable at its top level, for a reference at a
      place of the file that is read. -/
  find : σ → (line column : Nat) → Finder

namespace Resolver

/-- The resolver that knows no other files. -/
def detached : Resolver Unit where
  resolve _ _ _ := (none, ())
  load _ _ uri := ⟨(), [], some (.notLoaded uri)⟩
  find _ _ _ _ _ _ := none

end Resolver

end IndentedSass
