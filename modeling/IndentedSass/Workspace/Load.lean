/-
  Loading files.

  To load a file is to read it, unless its text and indentation are those of its
  last reading.  The files that it imports are loaded on the way.  A loading
  knows the chain of files whose imports led to it; an import that leads back
  into its own chain fails, so that loading comes to an end.

  * `Registry.loadInChain` loads a file for a chain of files;
  * `Registry.load` loads a file on its own, `Registry.reload` reads it in any
    case, so that its variables are looked for again.

  The number of files in a chain is bounded (`Registry.chainBound`): each of
  them is different from those before it, and it is an open document or the file
  at one of the finitely many paths of at most `Path.maxBytes` bytes.
-/
import IndentedSass.Reader.File
import IndentedSass.Workspace.Lookup

namespace IndentedSass

/-- What loading a file gives. -/
structure Loading where
  /-- The files after the loading. -/
  registry : Registry
  /-- The warnings noted on the way, in order. -/
  warnings : List Warning
  /-- The file, or why it could not be loaded. -/
  result : Except LoadError FileEntry
  /-- Whether the file was already there. -/
  cached : Bool

namespace Loading

/-- A loading as the reader of another file sees it. -/
def outcome (l : Loading) : LoadOutcome Registry where
  state := l.registry
  warnings := l.warnings
  error? := match l.result with
    | .ok _ => none
    | .error e => some e

end Loading

namespace Registry

/-- Access to the files of a session, given how they are loaded. -/
def resolver (disk : Disk) (load : Registry → IndentStyle → Uri → Loading) :
    Resolver Registry where
  resolve g base path := (g.resolve? disk base path, g)
  load g style uri := (load g style uri).outcome
  find g _ _ _ uri name := (g.findVariable? uri name).map FoundVariable.location

/-- Loads a file to which the imports of the files in `chain` led.  At most
    `bound` files are loaded inside each other. -/
def loadInChain (disk : Disk) :
    (bound : Nat) → (chain : List Uri) → Registry → IndentStyle → Uri → Loading
  | 0, _, g, _, uri => ⟨g, [], .error (.importCycle uri), false⟩
  | bound + 1, chain, g, style, uri =>
    if chain.contains uri then ⟨g, [.importCycle uri], .error (.importCycle uri), false⟩
    else match g.readText disk uri with
      | .error e => ⟨g, [], .error e, false⟩
      | .ok text =>
        match g.stored? uri text style with
        | some entry => ⟨g, [], .ok entry, true⟩
        | none =>
          let reading := readFile (resolver disk (loadInChain disk bound (chain ++ [uri])))
            g uri style text
          ⟨reading.files.store uri ⟨text, style, reading.entry⟩, reading.warnings,
            .ok reading.entry, false⟩

/-- A number of files that no chain reaches. -/
def chainBound (g : Registry) : Nat := Nat.pow 256 (Path.maxBytes + 1) + g.documents.size + 1

/-- Loads a file. -/
def load (g : Registry) (disk : Disk) (style : IndentStyle) (uri : Uri) : Loading :=
  loadInChain disk g.chainBound [] g style uri

/-- Reads a file, also when its text is unchanged. -/
def reload (g : Registry) (disk : Disk) (style : IndentStyle) (uri : Uri) : Loading :=
  (g.forget uri).load disk style uri

end Registry

end IndentedSass
