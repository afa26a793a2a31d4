/-
  The clauses of at-rules.

  * `importPaths?` are the paths of an `@import` line, `isPlainCss` tells the
    paths that stay as they are for the browser;
  * `UseClause.ofLine?` is the path and the qualifier of a `@use` line;
    `defaultQualifier` is the qualifier of a path that is used without `as`;
  * `MixinClause.ofLine` is the name of a mixin and its parameters, each with
    the column it starts at;
  * `mixinCall` and `extended` are what an `@include` and an `@extend` line
    name.
-/
import IndentedSass.Line.Scan
import IndentedSass.Tree.Node

namespace IndentedSass

/-! ## `@import` -/

/-- A path without the white space, semicolons and quotation marks around it. -/
def importPath (t : Text) : Text :=
  let bare := (Text.dropEnd (· == ';') t.trim).trim
  Text.dropEnd isQuoteMark (bare.dropWhile isQuoteMark)

/-- The paths of a comma-separated list. -/
def splitImportPaths (t : Text) : List Text :=
  ((t.splitOn ',').map importPath).filter fun path => !path.isEmpty

/-- The paths of an `@import` line; none when no blank follows the keyword. -/
def importPaths? (line : Text) : Option (List Text) :=
  match Text.dropPrefix? "@import".toList line.body with
  | some (c :: rest) => if isBlank c then some (splitImportPaths (Text.body (c :: rest))) else none
  | _ => none

/-- Whether an import is plain CSS and names no file to load. -/
def isPlainCss (path : Text) : Bool :=
  path.startsWith "url(".toList || path.startsWith "http://".toList ||
    path.startsWith "https://".toList || ".css".toList.isSuffixOf path

/-! ## `@use` -/

/-- The qualifier of a path that is used without `as`: its last segment without
    a leading underscore and without extensions. -/
def defaultQualifier (path : Text) : Text :=
  let segment := (path.reverse.takeWhile fun c => c ≠ '/' ∧ c ≠ ':').reverse
  let name := match segment with
    | '_' :: name => name
    | _ => segment
  name.takeWhile (· ≠ '.')

/-- What a `@use` line says. -/
structure UseClause where
  /-- The path of the module. -/
  path : Text
  /-- The qualifier; none for `as *`. -/
  qualifier : Option Text
  deriving DecidableEq, Repr

namespace UseClause

/-- A text between two marks `mark`, when both are there, and what follows. -/
def quoted? (mark : Char) : Text → Option (Text × Text)
  | [] => none
  | c :: cs =>
    if c ≠ mark then none
    else match cs.dropWhile (· ≠ mark) with
      | _ :: rest => some (cs.takeWhile (· ≠ mark), rest)
      | [] => none

/-- The path of a module: a quoted text, or all up to the next white space. -/
def path? (t : Text) : Option (Text × Text) :=
  match quoted? '"' t with
  | some found => some found
  | none =>
    match quoted? '\'' t with
    | some found => some found
    | none =>
      match t.takeWhile fun c => !isWhite c with
      | [] => none
      | path => some (path, t.dropWhile fun c => !isWhite c)

/-- The name after `as`: none when there is no such part, `some none` for
    `as *`. -/
def alias? (t : Text) : Option (Option Text) :=
  match t with
  | [] => none
  | c :: _ =>
    if !isBlank c then none
    else match t.body with
      | 'a' :: 's' :: d :: rest =>
        if !isBlank d then none
        else match Text.body rest with
          | '*' :: _ => some none
          | name =>
            match name.takeWhile isNameChar with
            | [] => none
            | word => some (some word)
      | _ => none

/-- What a `@use` line says; none when no blank and path follow the keyword. -/
def ofLine? (line : Text) : Option UseClause :=
  match Text.dropPrefix? "@use".toList line.body with
  | some (c :: rest) =>
    if !isBlank c then none
    else (path? (Text.body rest)).map fun (path, tail) =>
      ⟨path, (alias? tail).getD (some (defaultQualifier path))⟩
  | _ => none

end UseClause

/-! ## `@mixin` -/

/-- The pieces of a text between the commas outside of strings and parentheses,
    each with the column it starts at.  `current` is the piece so far and
    `start` its column; a piece has no blanks at its ends, and the last one is
    left out when it is empty. -/
def splitArguments (current : Text) (start depth : Nat) (q : Quote) (column : Nat) :
    Text → List (Text × Nat)
  | [] => if current.trimEnd.isEmpty then [] else [(current.trimEnd, start)]
  | c :: cs =>
    if current.isEmpty && isBlank c then splitArguments [] start depth q (column + 1) cs
    else
      let start := if current.isEmpty then column else start
      if q.isOutside && c == ',' && depth == 0 then
        (current.trimEnd, start) :: splitArguments [] start depth q (column + 1) cs
      else
        splitArguments (current ++ [c]) start (Line.parenDepth q depth c) (q.step .never c)
          (column + 1) cs

/-- What a mixin line says. -/
structure MixinClause where
  /-- How the mixin is declared. -/
  spelling : Spelling
  /-- Its name. -/
  name : Text
  /-- Its parameters as written, each with its column. -/
  parameters : List (Text × Nat)
  deriving DecidableEq, Repr

namespace MixinClause

/-- The text before the last `)`, or all of it when there is none. -/
def upToLastParen (t : Text) : Text :=
  match t.reverse.dropWhile (· ≠ ')') with
  | _ :: before => before.reverse
  | [] => t

/-- What a mixin line says. -/
def ofLine (line : Text) : MixinClause :=
  let rest := line.trimStart
  let start := line.length - rest.length
  let (spelling, length) : Spelling × Nat :=
    if rest.startsWith "@mixin".toList then (.keyword, 6) else (.sigil, 1)
  let rest := Text.trimEnd (rest.drop length)
  let name : Text := rest.takeWhile (· ≠ '(')
  match rest.dropWhile (· ≠ '(') with
  | _ :: inner =>
    let column := start + length + name.length + 1
    ⟨spelling, name.trim, splitArguments [] column 0 .outside column (upToLastParen inner)⟩
  | [] => ⟨spelling, rest.trim, []⟩

end MixinClause

/-! ## `@include` and `@extend` -/

/-- The spelling of an `@include` line and what follows the keyword or sigil. -/
def mixinCall (line : Text) : Spelling × Text :=
  match Text.dropPrefix? "@include".toList line.trim with
  | some rest => (.keyword, rest.trim)
  | none => (.sigil, (Text.dropCopies '+' [] line.trim).trim)

/-- The selector of an `@extend` line. -/
def extended (line : Text) : Text := (Text.dropCopies '@' "extend".toList line.trim).trim

/-! ## Block comments -/

/-- A line without the first `columns` columns of its indentation, or without
    all of it when there are fewer; a tab is not cut in two. -/
def dropColumns (tab columns : Nat) : Text → Text
  | [] => []
  | c :: cs =>
    if columns = 0 then c :: cs
    else if c = ' ' then dropColumns tab (columns - 1) cs
    else if c = '\t' then dropColumns tab (columns - tab) cs
    else c :: cs

end IndentedSass
