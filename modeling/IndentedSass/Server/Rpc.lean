/-
  The messages of the language server.

  Messages are JSON objects.  One with an `id` is a request, which is answered
  under that `id`; one without is a report.  `Session.receive` takes a message
  and gives the response, if the message asks for one, and the messages that
  the server sends on its own.

  A report that is not understood is ignored, a request that is not understood
  is refused (`Refusal`).
-/
import IndentedSass.Server.Session
import IndentedSass.Tree.Json

namespace IndentedSass

/-! ## Parameters -/

/-- A 32-bit count. -/
def Json.nat32? (j : Json) : Option Nat := j.nat?.filter (· < UInt32.size)

/-- A 32-bit number with a sign. -/
def Json.int32? : Json → Option Int
  | .int n => if Int32.minValue.toInt ≤ n ∧ n ≤ Int32.maxValue.toInt then some n else none
  | _ => none

/-- A position from JSON. -/
def Position.ofJson? (j : Json) : Option Position := do
  let r ← Record.ofJson? ["line", "character"] [] j
  return ⟨← r.field "line" Json.nat32?, ← r.field "character" Json.nat32?⟩

/-- A range from JSON. -/
def Range.ofJson? (j : Json) : Option Range := do
  let r ← Record.ofJson? ["start", "end"] [] j
  return ⟨← r.field "start" Position.ofJson?, ← r.field "end" Position.ofJson?⟩

/-- A change of a document from JSON. -/
def Change.ofJson? (j : Json) : Option Change := do
  let r ← Record.ofJson? ["range", "rangeLength", "text"] [] j
  return ⟨← r.nullable "range" Range.ofJson?, ← r.field "text" Text.ofJson?⟩

/-- The changes of a document from JSON. -/
def Change.listOfJson? (j : Json) : Option (List Change) := do
  (← j.items?).mapM Change.ofJson?

/-- The indentation that an editor asks for. -/
def IndentStyle.ofJson? (j : Json) : Option IndentStyle := do
  return ⟨← (← j.get? "tabSize").nat32?, ← (← j.get? "insertSpaces").bool?⟩

namespace Request

/-- The names of the requests. -/
def methods : List String := ["initialize", "textDocument/formatting", "shutdown"]

/-- Reads a request. -/
def ofJson? (method : String) (params : Json) : Option Request :=
  match method with
  | "initialize" =>
    match params.get? "initializationOptions" with
    | none | some .null => some (.start none)
    | some settings => some (.start (some settings))
  | "textDocument/formatting" => do
    let document ← params.get? "textDocument"
    return .format (← (← document.get? "uri") |> Uri.ofJson?)
      (← (← params.get? "options") |> IndentStyle.ofJson?)
  | "shutdown" => some .shutdown
  | _ => none

end Request

namespace Report

/-- Reads a report. -/
def ofJson? (method : String) (params : Json) : Option Report := do
  match method with
  | "initialized" => return .initialized
  | "textDocument/didOpen" =>
    let document ← params.get? "textDocument"
    return .opened (← (← document.get? "uri") |> Uri.ofJson?)
      (← (← document.get? "text") |> Text.ofJson?) (← (← document.get? "version").int32?)
  | "textDocument/didChange" =>
    let document ← params.get? "textDocument"
    return .changed (← (← document.get? "uri") |> Uri.ofJson?)
      (← (← params.get? "contentChanges") |> Change.listOfJson?)
      (← (← document.get? "version").int32?)
  | "textDocument/didClose" =>
    let document ← params.get? "textDocument"
    return .closed (← (← document.get? "uri") |> Uri.ofJson?)
  | "workspace/didChangeConfiguration" => return .configured (← params.get? "settings")
  | _ => none

end Report

/-! ## Messages of the server -/

/-- The version of the protocol, which every message carries. -/
def rpcVersion : String × Json := ("jsonrpc", .str "2.0")

namespace Answer

/-- An answer as JSON. -/
def toJson : Answer → Json
  | started => .obj
    [("capabilities", .obj [("documentFormattingProvider", .bool true),
      ("textDocumentSync", .nat 2)]),
     ("serverInfo", .obj [("name", .str "sass_code_native"), ("version", .str "0.1.0")])]
  | edits es => .ofOption (fun es => .arr (es.map Edit.toJson)) es
  | done => .null

end Answer

namespace Refusal

/-- The number of a refusal. -/
def code : Refusal → Int
  | notInitialized => -32002
  | invalidRequest => -32600
  | invalidParams => -32602
  | unknownMethod _ => -32601

/-- The wording of a refusal. -/
def message : Refusal → String
  | notInitialized => "Server not initialized"
  | invalidRequest => "Invalid request"
  | invalidParams => "Invalid params"
  | unknownMethod _ => "Method not found"

/-- A refusal as JSON. -/
def toJson (r : Refusal) : Json :=
  .obj ([("code", .int r.code), ("message", .str r.message)] ++
    match r with
    | unknownMethod name => [("data", .str name)]
    | _ => [])

end Refusal

namespace Notice

/-- A message that the server sends on its own, as JSON. -/
def toJson : Notice → Json
  | log message => .obj
    [rpcVersion, ("method", .str "window/logMessage"),
     ("params", .obj [("type", .nat 3), ("message", .str message)])]
  | problems uri version diagnostics => .obj
    [rpcVersion, ("method", .str "textDocument/publishDiagnostics"),
     ("params", .obj ([("uri", uri.toJson),
       ("diagnostics", .arr (diagnostics.map Diagnostic.toEditorJson))] ++
       match version with
       | some n => [("version", .int n)]
       | none => []))]

end Notice

/-- The response to a request. -/
def responseJson (id : Json) (result : Except Refusal Answer) : Json :=
  .obj [rpcVersion, ("id", id),
    match result with
    | .ok answer => ("result", answer.toJson)
    | .error refusal => ("error", refusal.toJson)]

/-- What the server sends on a message. -/
structure Reply where
  /-- The response, when the message is a request. -/
  response : Option Json
  /-- What the server sends on its own, in order. -/
  sent : List Json
  deriving Repr

namespace Session

/-- Takes a request. -/
def receiveRequest (s : Session) (method : String) (params : Json) :
    Session × Except Refusal Answer :=
  if !Request.methods.contains method then (s, .error (.unknownMethod method))
  else match Request.ofJson? method params with
    | some request => s.answer request
    | none => (s, .error .invalidParams)

/-- Takes a message. -/
def receive (s : Session) (disk : Disk) (message : Json) : Session × Reply :=
  let method := ((message.get? "method").bind Json.str?).getD ""
  let params := (message.get? "params").getD .null
  match message.get? "id" with
  | some id =>
    let (s, result) := s.receiveRequest method params
    (s, ⟨some (responseJson id result), []⟩)
  | none =>
    match Report.ofJson? method params with
    | some report =>
      let (s, notices) := s.observe disk report
      (s, ⟨none, notices.map Notice.toJson⟩)
    | none => (s, ⟨none, []⟩)

end Session

end IndentedSass
