/-
  Trees as JSON.

  Every node and every part of a value is an object with its kind in the field
  `type`.  What may be absent is written as `null`, and may be missing when a
  tree is read; unknown fields are ignored.  An array of the values of the fields
  is read as well, and inside of a node or part a kind can be given by number.

  * `Node.toJson` and `Value.toJson` write, `Node.ofJson?` and `Value.ofJson?`
    read;
  * `FileEntry.toJson` and `Diagnostic.toJson` write the result of a reading;
    `Diagnostic.toEditorJson` is the form that editors take.
-/
import IndentedSass.Json
import IndentedSass.Text.Edit
import IndentedSass.Tree.Node

namespace IndentedSass

/-! ## Texts, places, edits -/

/-- A text as JSON. -/
def Text.toJson (t : Text) : Json := .str t.string

/-- A text from JSON. -/
def Text.ofJson? (j : Json) : Option Text := j.str?.map String.toList

/-- A URI as JSON. -/
def Uri.toJson (u : Uri) : Json := .str u.string

/-- A URI from JSON. -/
def Uri.ofJson? (j : Json) : Option Uri :=
  j.str?.bind fun s => (Uri.parse s.toList).toOption

/-- A position as JSON. -/
def Position.toJson (p : Position) : Json :=
  .obj [("line", .nat p.line), ("character", .nat p.character)]

/-- A range as JSON. -/
def Range.toJson (r : Range) : Json := .obj [("start", r.start.toJson), ("end", r.stop.toJson)]

/-- An edit as JSON. -/
def Edit.toJson (e : Edit) : Json := .obj [("range", e.range.toJson), ("newText", e.newText.toJson)]

/-- A location as JSON. -/
def Location.toJson (l : Location) : Json := .obj [("uri", l.uri.toJson), ("line", .nat l.line)]

/-- A location from JSON. -/
def Location.ofJson? (j : Json) : Option Location := do
  let r ← Record.ofJson? ["uri", "line"] [] j
  return ⟨← r.field "uri" Uri.ofJson?, ← r.field "line" Json.nat?⟩

/-! ## Writing -/

/-- The field that marks a joined part. -/
def joinedField (joined : Bool) : List (String × Json) :=
  if joined then [("joined", .bool true)] else []

namespace Value

/-- The fields of a compound that tell its form. -/
def formFields : Form → List (String × Json)
  | .call name => [("expressionType", .str "func"), ("funcName", name.toJson)]
  | .interpolation => [("expressionType", .str "interpolated")]

mutual

/-- A part of a value as JSON. -/
def toJson : Value → Json
  | literal text joined =>
    .obj ([("type", .str "literal"), ("value", text.toJson)] ++ joinedField joined)
  | reference ref joined =>
    .obj ([("type", .str "variableRef"), ("value", ref.text.toJson), ("name", ref.name.toJson),
      ("namespace", .ofOption Text.toJson ref.qualifier),
      ("ref", .ofOption Location.toJson ref.target)] ++ joinedField joined)
  | compound form body joined =>
    .obj ([("type", .str "expression")] ++ formFields form ++ [("body", .arr (listToJson body))] ++
      joinedField joined)

/-- The parts of a value as JSON. -/
def listToJson : List Value → List Json
  | [] => []
  | v :: vs => toJson v :: listToJson vs

end

end Value

/-- A parameter as JSON. -/
def Parameter.toJson (p : Parameter) : Json :=
  .obj [("value", p.name.toJson),
    ("body", .ofOption (fun value => .arr (Value.listToJson value)) p.default?)]

/-- A line of a block comment as JSON. -/
def CommentLine.toJson (l : CommentLine) : Json :=
  .obj [("line", .nat l.line), ("value", l.text.toJson)]

/-- The spelling of a mixin or its inclusion, by the text before its name. -/
def Spelling.toJson (keyword sigil : String) : Spelling → Json
  | .keyword => .str keyword
  | .sigil => .str sigil

/-- A variable declaration as JSON. -/
def VariableDecl.toJson (v : VariableDecl) : Json :=
  .obj [("line", .nat v.line), ("level", .nat v.level), ("value", v.name.toJson),
    ("body", .arr (Value.listToJson v.value))]

namespace Leaf

/-- The fields of a leaf besides its kind and line. -/
def fields : Leaf → List (String × Json)
  | property level name value | variableDecl level name value =>
    [("level", .nat level), ("value", name.toJson), ("body", .arr (Value.listToJson value))]
  | importPath level path target =>
    [("level", .nat level), ("value", path.toJson), ("uri", .ofOption Uri.toJson target)]
  | useModule path target qualifier =>
    [("value", path.toJson), ("uri", .ofOption Uri.toJson target),
      ("namespace", .ofOption Text.toJson qualifier)]
  | comment level text | extendRule level text | unclassified level text =>
    [("level", .nat level), ("value", text.toJson)]
  | blockComment level lines =>
    [("level", .nat level), ("body", .arr (lines.map CommentLine.toJson))]
  | blank => []
  | mixinCall level spelling text =>
    [("level", .nat level), ("value", text.toJson),
      ("include_type", spelling.toJson "@include" "+")]

end Leaf

namespace Header

/-- The fields of a block that tell its header. -/
def fields : Header → List (String × Json)
  | rule selector => [("value", selector.toJson)]
  | mixin spelling name parameters =>
    [("value", name.toJson), ("mixin_type", spelling.toJson "@mixin" "="),
      ("args", .arr (parameters.map Parameter.toJson))]
  | fontFace => []

end Header

namespace Node

mutual

/-- A node as JSON. -/
def toJson : Node → Json
  | leaf line l => .obj ([("type", .str l.kind.name), ("line", .nat line)] ++ l.fields)
  | block line level header body =>
    .obj ([("type", .str header.kind.name), ("line", .nat line), ("level", .nat level)] ++
      header.fields ++ [("body", .arr (listToJson body))])

/-- A list of nodes as JSON. -/
def listToJson : List Node → List Json
  | [] => []
  | n :: ns => toJson n :: listToJson ns

end

end Node

/-! ## Reading

The recursion is bounded by the nesting depth of the JSON value. -/

/-- The name of a kind.  Where `numbered` says so it may also be given by its
    number in the list of names. -/
def kindName? (names : List String) (numbered : Bool) : Json → Option String
  | .str name => some name
  | .int n => if numbered && 0 ≤ n then names[n.toNat]? else none
  | _ => none

/-- The kind of a node or part and what tells the rest: the whole object, or
    what follows the kind in an array. -/
def kindAndRest? (names : List String) (numbered : Bool) : Json → Option (String × Json)
  | .obj fields =>
    (fields.lookup "type").bind fun j =>
      (kindName? names numbered j).map fun kind => (kind, .obj fields)
  | .arr (j :: rest) => (kindName? names numbered j).map fun kind => (kind, .arr rest)
  | _ => none

/-- The spelling of a mixin or its inclusion: its text, or an object with that
    text as its one field, which is empty. -/
def Spelling.ofJson? (keyword sigil : String) (j : Json) : Option Spelling :=
  let name? := match j with
    | .str s | .obj [(s, .null)] | .obj [(s, .obj [])] => some s
    | _ => none
  name?.bind fun name =>
    if name = keyword then some .keyword else if name = sigil then some .sigil else none

namespace Value

/-- The kinds of parts, in the order of their numbers. -/
def kindNames : List String := ["literal", "variableRef", "expression"]

/-- The forms of compounds, in the order of their numbers. -/
def formNames : List String := ["func", "interpolated"]

/-- The form of a compound. -/
def formOf? (fields : List (String × Json)) : Option Form := do
  let kind ← (fields.lookup "expressionType").bind (kindName? formNames true)
  match kind with
  | "func" => return .call (← (fields.lookup "funcName").bind Text.ofJson?)
  | "interpolated" => return .interpolation
  | _ => none

/-- A part of a value, read to a nesting depth of at most `n`.  The parts inside of
    it may have their kinds given by number. -/
def ofJsonTo? (numbered : Bool) : (n : Nat) → Json → Option Value
  | 0, _ => none
  | n + 1, j => do
    let (kind, rest) ← kindAndRest? kindNames numbered j
    match kind with
    | "literal" =>
      let r ← Record.ofJson? ["value"] ["joined"] rest
      return .literal (← r.field "value" Text.ofJson?) (← r.flag "joined" false)
    | "variableRef" =>
      let r ← Record.ofJson? ["value", "name", "namespace", "ref"] ["joined"] rest
      let text ← r.field "value" Text.ofJson?
      let name ← r.field "name" Text.ofJson?
      let qualifier ← r.nullable "namespace" Text.ofJson?
      let target ← r.nullable "ref" Location.ofJson?
      return .reference ⟨text, name, qualifier, target⟩ (← r.flag "joined" false)
    | "expression" =>
      match rest with
      | .obj fields =>
        let r ← Record.ofJson? [] [] rest
        let form ← formOf? fields
        let items ← r.field "body" Json.items?
        return .compound form (← items.mapM (ofJsonTo? true n)) (← r.flag "joined" false)
      | _ => none
    | _ => none

/-- A part of a value from JSON. -/
def ofJson? (numbered : Bool) (j : Json) : Option Value := ofJsonTo? numbered j.depth j

/-- A list of parts from JSON. -/
def listOfJson? (numbered : Bool) (j : Json) : Option (List Value) :=
  j.items?.bind fun items => items.mapM (ofJson? numbered)

end Value

/-- A parameter from JSON. -/
def Parameter.ofJson? (j : Json) : Option Parameter := do
  let r ← Record.ofJson? ["value", "body"] [] j
  return ⟨← r.field "value" Text.ofJson?, ← r.nullable "body" (Value.listOfJson? true)⟩

/-- A line of a block comment from JSON. -/
def CommentLine.ofJson? (j : Json) : Option CommentLine := do
  let r ← Record.ofJson? ["line", "value"] [] j
  return ⟨← r.field "line" Json.nat?, ← r.field "value" Text.ofJson?⟩

namespace Node

/-- The items of an array, each read by `read`. -/
def list? {α : Type} (read : Json → Option α) (j : Json) : Option (List α) :=
  j.items?.bind fun items => items.mapM read

/-- A leaf of a kind with a level and a text. -/
def textLeaf? (make : Nat → Text → Leaf) (rest : Json) : Option Node := do
  let r ← Record.ofJson? ["line", "level", "value"] [] rest
  let line ← r.field "line" Json.nat?
  let level ← r.field "level" Json.nat?
  return .leaf line (make level (← r.field "value" Text.ofJson?))

/-- A leaf of a kind with a level, a name and a value. -/
def valueLeaf? (make : Nat → Text → List Value → Leaf) (rest : Json) : Option Node := do
  let r ← Record.ofJson? ["line", "level", "value", "body"] [] rest
  let line ← r.field "line" Json.nat?
  let level ← r.field "level" Json.nat?
  let name ← r.field "value" Text.ofJson?
  return .leaf line (make level name (← r.field "body" (Value.listOfJson? true)))

/-- A leaf of a known kind. -/
def leafOfJson? (kind : String) (rest : Json) : Option Node :=
  match kind with
  | "property" => valueLeaf? .property rest
  | "variable" => valueLeaf? .variableDecl rest
  | "import" => do
    let r ← Record.ofJson? ["line", "level", "value", "uri"] [] rest
    let line ← r.field "line" Json.nat?
    let level ← r.field "level" Json.nat?
    let path ← r.field "value" Text.ofJson?
    return .leaf line (.importPath level path (← r.nullable "uri" Uri.ofJson?))
  | "use" => do
    let r ← Record.ofJson? ["line", "value", "uri", "namespace"] [] rest
    let line ← r.field "line" Json.nat?
    let path ← r.field "value" Text.ofJson?
    let target ← r.nullable "uri" Uri.ofJson?
    return .leaf line (.useModule path target (← r.nullable "namespace" Text.ofJson?))
  | "comment" => textLeaf? .comment rest
  | "blockComment" => do
    let r ← Record.ofJson? ["line", "level", "body"] [] rest
    let line ← r.field "line" Json.nat?
    let level ← r.field "level" Json.nat?
    return .leaf line (.blockComment level (← r.field "body" (list? CommentLine.ofJson?)))
  | "emptyLine" => do
    let r ← Record.ofJson? ["line"] [] rest
    return .leaf (← r.field "line" Json.nat?) .blank
  | "extend" => textLeaf? .extendRule rest
  | "include" => do
    let r ← Record.ofJson? ["line", "level", "value", "include_type"] [] rest
    let line ← r.field "line" Json.nat?
    let level ← r.field "level" Json.nat?
    let text ← r.field "value" Text.ofJson?
    let spelling ← r.field "include_type" (Spelling.ofJson? "@include" "+")
    return .leaf line (.mixinCall level spelling text)
  | "unclassified" => textLeaf? .unclassified rest
  | _ => none

/-- The names of the fields of a block, in their order. -/
def blockFieldNames : String → List String
  | "selector" => ["line", "level", "value", "body"]
  | "mixin" => ["line", "level", "value", "mixin_type", "args", "body"]
  | _ => ["line", "level", "body"]

/-- The header of a block of a known kind. -/
def headerOf? (kind : String) (r : Record) : Option Header :=
  match kind with
  | "selector" => return .rule (← r.field "value" Text.ofJson?)
  | "mixin" => do
    let name ← r.field "value" Text.ofJson?
    let spelling ← r.field "mixin_type" (Spelling.ofJson? "@mixin" "=")
    return .mixin spelling name (← r.field "args" (list? Parameter.ofJson?))
  | "fontFace" => some .fontFace
  | _ => none

/-- The kinds of nodes, in the order of their numbers. -/
def kindNames : List String :=
  ["selector", "property", "variable", "import", "use", "comment", "blockComment", "emptyLine",
    "extend", "include", "mixin", "fontFace", "unclassified"]

/-- A node, read to a nesting depth of at most `n`.  The nodes and parts inside of
    it may have their kinds given by number. -/
def ofJsonTo? (numbered : Bool) : (n : Nat) → Json → Option Node
  | 0, _ => none
  | n + 1, j => do
    let (kind, rest) ← kindAndRest? kindNames numbered j
    if ["selector", "mixin", "fontFace"].contains kind then
      let r ← Record.ofJson? (blockFieldNames kind) [] rest
      let line ← r.field "line" Json.nat?
      let level ← r.field "level" Json.nat?
      let header ← headerOf? kind r
      let items ← r.field "body" Json.items?
      return .block line level header (← items.mapM (ofJsonTo? true n))
    else leafOfJson? kind rest

/-- A node from JSON. -/
def ofJson? (j : Json) : Option Node := ofJsonTo? false j.depth j

/-- A list of nodes from JSON. -/
def listOfJson? (j : Json) : Option (List Node) := list? ofJson? j

end Node

/-! ## Results of a reading -/

namespace Diagnostic

/-- A diagnostic as JSON. -/
def toJson (d : Diagnostic) : Json :=
  .obj [("code", .str d.problem.code), ("message", .str d.problem.message),
    ("severity", .nat d.problem.severity.number), ("range", d.range.toJson),
    ("isResolvedByFormatting", .bool d.problem.isResolvedByFormatting)]

/-- A diagnostic as editors take it. -/
def toEditorJson (d : Diagnostic) : Json :=
  .obj [("range", d.range.toJson), ("severity", .nat d.problem.severity.number),
    ("code", .str d.problem.code), ("source", .str "sass"), ("message", .str d.problem.message)]

end Diagnostic

/-- The result of a reading as JSON. -/
def FileEntry.toJson (entry : FileEntry) : Json :=
  .obj [("body", .arr (Node.listToJson entry.body)),
    ("diagnostics", .arr (entry.diagnostics.map Diagnostic.toJson))]

end IndentedSass
