/-
  Reading URIs.

  `Uri.parse` reads a URI and brings it to its normal form:

  * control characters and spaces around it and the tabs and line breaks in it
    mean nothing;
  * the special schemes (`file`, `http`, …) always have an authority and a path
    that starts with a slash, and take a backslash for a slash;
  * a `file` URI is on this computer when its host is `localhost` or its path
    starts with a drive;
  * a path that does not start with a slash and stands behind no authority (as
    in `untitled:Untitled-1`) is kept as it is.
-/
import IndentedSass.Uri.Segments

namespace IndentedSass

namespace Uri

/-! ## Parts of the text -/

/-- The special schemes other than `file` and the number that a host of theirs has
    when none is written. -/
def usualNumber? (scheme : Text) : Option Nat :=
  ([("http", 80), ("https", 443), ("ws", 80), ("wss", 443), ("ftp", 21)].find?
    fun e => e.1 == scheme.string).map (·.2)

/-- The text without the control characters and spaces around it. -/
def trim (t : Text) : Text := Text.dropEnd (· ≤ ' ') (t.dropWhile (· ≤ ' '))

/-- The scheme, in lower case, and what follows its colon. -/
def splitScheme? (t : Text) : Option (Text × Text) :=
  let isSchemeChar (c : Char) : Bool := c.isAlphanum || c == '+' || c == '-' || c == '.'
  let scheme := dropBreaks (t.takeWhile (· ≠ ':'))
  match t.dropWhile (· ≠ ':') with
  | [] => none
  | _ :: rest =>
    if (scheme.head?.map Char.isAlpha).getD false && scheme.all isSchemeChar then
      some (scheme.map Char.toLower, rest)
    else none

/-- Cuts a text before the first character that satisfies `p`. -/
def cut (p : Char → Bool) (t : Text) : Text × Text :=
  (t.takeWhile fun c => !p c, t.dropWhile fun c => !p c)

/-- Whether a character is a slash, or, in a special scheme, a backslash. -/
def isSlash (special : Bool) (c : Char) : Bool := c == '/' || (special && c == '\\')

/-- Whether a path ends before a character. -/
def endsPath (c : Char) : Bool := c == '?' || c == '#'

/-- The URI with the query and the fragment that its text ends in. -/
def withTail (u : Uri) (special : Bool) (t : Text) : Uri :=
  let (query, hash) := cut (· == '#') (dropBreaks t)
  { u with
    query := match query with
      | '?' :: rest => some (Percent.encode (isQueryChar special) rest)
      | _ => none
    fragment := match hash with
      | _ :: rest => some (Percent.encode isFragmentChar rest)
      | [] => none }

/-! ## Files -/

/-- The `file` URI on a host with a path, a query and a fragment that are still to
    be read.  Slashes at the start of the path count as one. -/
def onHost (host t : Text) : Uri :=
  let (written, tail) := cut endsPath t
  let trail := Trail.read true true written
  let uri : Uri :=
    { scheme := "file".toList
      authority := some (.ofHost (if trail.onDrive then [] else host))
      path := '/' :: trail.text.dropWhile (· == '/')
      query := none
      fragment := none }
  uri.withTail true tail

/-- What follows a slash at the start of a text. -/
def dropSlash? (t : Text) : Option Text :=
  match t.dropWhile isBreak with
  | c :: rest => if isSlash true c then some rest else none
  | [] => none

/-- Reads what follows `file://`.  The name of a drive in the place of the host is
    the start of the path. -/
def fileOnHost (t : Text) : Except UriError Uri := do
  let (written, rest) := cut (fun c => isSlash true c || endsPath c) t
  let written := dropBreaks written
  if isDrive written then return onHost [] t
  else if written = [] then return onHost [] rest
  else
    let host ← (Host.parse written).mapError .host
    if host = .name "localhost".toList then return onHost [] rest
    else return onHost host.text ((dropSlash? rest).getD rest)

/-- Reads what follows `file:`. -/
def file (t : Text) : Except UriError Uri :=
  match dropSlash? t with
  | none => .ok (onHost [] t)
  | some rest => match dropSlash? rest with
    | none => .ok (onHost [] rest)
    | some rest => fileOnHost rest

/-! ## Authorities -/

/-- The user name and password in normal form. -/
def normalUser (t : Text) : Text :=
  let (name, password) := cut (· == ':') t
  let name := Percent.encode isUserChar name
  let password := Percent.encode isUserChar (password.drop 1)
  if password = [] then name else name ++ ':' :: password

/-- What stands before and behind the last `@` of a text. -/
def splitUser (t : Text) : Option Text × Text :=
  match t.reverse.dropWhile (· ≠ '@') with
  | [] => (none, t)
  | _ :: before => (some before.reverse, (t.reverse.takeWhile (· ≠ '@')).reverse)

/-- The host at the start of a text and what follows it: it ends at a colon that
    is not in brackets. -/
def splitHost (inBrackets : Bool) : Text → Text × Text
  | [] => ([], [])
  | c :: rest =>
    if c = ':' && !inBrackets then ([], c :: rest)
    else
      let (host, tail) := splitHost (c == '[' || (inBrackets && c != ']')) rest
      (c :: host, tail)

/-- The number behind the host's colon, and what follows it.  The usual number is
    left out. -/
def readNumber (usual : Option Nat) : Text → Except UriError (Option Nat × Text)
  | ':' :: t =>
    let (digits, rest) := cut (fun c => !c.isDigit) t
    let number := (Radix.read? 10 digits).getD 0
    if 65535 < number || !(rest.head?.map (· == '\\')).getD true then .error .invalidPort
    else .ok (if digits = [] || some number = usual then none else some number, rest)
  | t => .ok (none, t)

/-- Reads an authority, in front of the text `rest`.  It gives what follows the
    number behind the host's colon as well, which can only start with a
    backslash. -/
def readAuthority (scheme : Text) (t rest : Text) : Except UriError (Authority × Text) := do
  let usual := usualNumber? scheme
  let (written, hostAndNumber) := splitUser t
  let user := normalUser (written.getD [])
  let (hostText, number) := splitHost false hostAndNumber
  if written = some [] && hostAndNumber = [] && rest ≠ [] then .error (.host .empty)
  else if hostText = [] && (usual.isSome || number ≠ [] || user ≠ []) then .error (.host .empty)
  else
    let parse := if usual.isSome then Host.parse else Host.parseOpaque
    let host ← (parse hostText).mapError .host
    let (number, more) ← readNumber usual number
    return (⟨user, host.text, number⟩, more)

/-! ## Schemes other than `file` -/

/-- Reads what follows `//`.  A special scheme has a path in any case. -/
def withAuthority (scheme : Text) (t : Text) : Except UriError Uri := do
  let special := (usualNumber? scheme).isSome
  let (written, rest) := cut (fun c => isSlash special c || endsPath c) t
  let (authority, more) ← readAuthority scheme written rest
  let (path, tail) := cut endsPath (more ++ rest)
  let inner := match path with
    | c :: inner => if isSlash special c then inner else path
    | [] => []
  let path := if path = [] && !special then [] else (Trail.read false special inner).text
  let uri : Uri := { scheme, authority := some authority, path, query := none, fragment := none }
  return uri.withTail special tail

/-- Reads what follows the colon of a scheme that is not special when no
    authority follows. -/
def withoutAuthority (scheme : Text) (t : Text) : Uri :=
  let (path, tail) := cut endsPath t
  let path := match path with
    | '/' :: inner => (Trail.read false false inner).text
    | _ => Percent.encode isPrintable path
  let uri : Uri := { scheme, authority := none, path, query := none, fragment := none }
  uri.withTail false tail

/-- Reads a URI. -/
def parse (t : Text) : Except UriError Uri :=
  match splitScheme? (trim t) with
  | none => .error .relative
  | some (scheme, rest) =>
    if scheme = "file".toList then file rest
    else if (usualNumber? scheme).isSome then
      withAuthority scheme ((dropBreaks rest).dropWhile (isSlash true))
    else match dropBreaks rest with
      | '/' :: '/' :: t => withAuthority scheme t
      | t => .ok (withoutAuthority scheme t)

end Uri

end IndentedSass
