/-
  The files that an import path can mean.

  A path with one of the known extensions means the file of that name or its
  partial, whose name starts with `_`.  Any other path means, for each known
  extension, the file with that extension or its partial, and then the index
  file of a directory of that name.  `Path.candidates` lists these files in the
  order in which they are looked for.
-/
import IndentedSass.Workspace.Path

namespace IndentedSass

/-- The extensions of files that can be imported, in the order of preference. -/
def importExtensions : List FileName := ["sass", "scss", "css"].map FileName.ofString

namespace FileName

/-- The name of the partial. -/
def asPartial (n : FileName) : FileName := ofString "_" ++ n

/-- The name with an extension added. -/
def withExtension (n extension : FileName) : FileName := n ++ dot :: extension

end FileName

namespace Path

/-- The files that an import path can mean, in the order of preference.  A name
    that is no text means none. -/
def candidates (target : Path) : List Path :=
  match target.fileName? with
  | none => []
  | some n =>
    if (Utf8.decode? n).isNone then []
    else if n.extension?.any importExtensions.contains then
      [target, target.withFileName n.asPartial]
    else
      (importExtensions.flatMap fun e =>
        [target.withFileName (n.withExtension e),
         target.withFileName (n.asPartial.withExtension e)]) ++
      importExtensions.flatMap fun e =>
        let index := (FileName.ofString "index").withExtension e
        [target.child index.asPartial, target.child index]

end Path

end IndentedSass
