/-
  A session of the language server.

  An editor starts a session, reports which documents it opens, changes and
  closes, and asks for documents to be formatted.  The server answers requests
  and publishes the problems of a document whenever that changes.

  * `Session.answer` answers a request, `Session.observe` takes note of a
    report;
  * nothing is done before the session is started or after it is shut down
    (`Phase`);
  * formatting a document also sets the indentation with which documents are
    read from then on.

  The disk is read at each step, so it may change between two of them.
-/
import IndentedSass.Format.Document
import IndentedSass.Workspace.Load

namespace IndentedSass

/-- How far a session is. -/
inductive Phase where
  /-- Not started. -/
  | fresh
  /-- Started. -/
  | running
  /-- Shut down. -/
  | stopped
  deriving DecidableEq, Repr

/-- What an editor asks. -/
inductive Request where
  /-- To start the session, with settings. -/
  | start (settings : Option Json)
  /-- To format a document. -/
  | format (uri : Uri) (style : IndentStyle)
  /-- To shut the session down. -/
  | shutdown
  deriving Repr

/-- What an editor reports. -/
inductive Report where
  /-- The session has started. -/
  | initialized
  /-- A document was opened. -/
  | opened (uri : Uri) (text : Text) (version : Int)
  /-- A document was changed. -/
  | changed (uri : Uri) (changes : List Change) (version : Int)
  /-- A document was closed. -/
  | closed (uri : Uri)
  /-- The settings were changed. -/
  | configured (settings : Json)
  deriving Repr

/-- What the server answers to a request. -/
inductive Answer where
  /-- The session has started. -/
  | started
  /-- The edits that format a document; none when it is not open. -/
  | edits (edits : Option (List Edit))
  /-- The session is shut down. -/
  | done
  deriving Repr

/-- Why a request has no answer. -/
inductive Refusal where
  /-- The session has not started. -/
  | notInitialized
  /-- The session is over, or has started already. -/
  | invalidRequest
  /-- The parameters do not have the expected shape. -/
  | invalidParams
  /-- There is no such request. -/
  | unknownMethod (name : String)
  deriving DecidableEq, Repr

/-- What the server tells an editor on its own. -/
inductive Notice where
  /-- A message for the log. -/
  | log (message : String)
  /-- The problems of a document, and the version of the document when it is
      open. -/
  | problems (uri : Uri) (version : Option Int) (diagnostics : List Diagnostic)
  deriving Repr

/-- The state of a session. -/
structure Session where
  /-- How far the session is. -/
  phase : Phase := .fresh
  /-- The switches of the formatter. -/
  config : FormatConfig := {}
  /-- The indentation with which documents are read. -/
  style : IndentStyle := {}
  /-- The documents and files. -/
  registry : Registry := {}
  deriving Repr

namespace Session

/-- Takes new settings; settings that are not well formed change nothing. -/
def configure (s : Session) (settings : Json) : Session :=
  match FormatConfig.ofSettings settings with
  | .ok config => { s with config }
  | .error _ => s

/-- Reads a document and publishes its problems.  Of a document that cannot be
    read nothing is published. -/
def publish (s : Session) (disk : Disk) (uri : Uri) : Session × List Notice :=
  let version := (s.registry.documents.get? uri).map (·.version)
  let loading := s.registry.reload disk s.style uri
  ({ s with registry := loading.registry },
    match loading.result with
    | .ok entry => [.problems uri version entry.diagnostics]
    | .error _ => [])

/-- Answers a request of a session that is running. -/
def answerRunning (s : Session) : Request → Session × Except Refusal Answer
  | .start _ => (s, .error .invalidRequest)
  | .format uri style =>
    let edits := (s.registry.documentText? uri).map (formatEdits s.config style)
    ({ s with style }, .ok (.edits edits))
  | .shutdown => ({ s with phase := .stopped }, .ok .done)

/-- Answers a request. -/
def answer (s : Session) (request : Request) : Session × Except Refusal Answer :=
  match s.phase, request with
  | .running, _ => s.answerRunning request
  | .fresh, .start settings =>
    let s := (settings.map s.configure).getD s
    ({ s with phase := .running }, .ok .started)
  | .fresh, _ => (s, .error .notInitialized)
  | .stopped, _ => (s, .error .invalidRequest)

/-- Takes note of a report to a session that is running. -/
def observeRunning (s : Session) (disk : Disk) : Report → Session × List Notice
  | .initialized => (s, [.log "Sass Language Server initialized"])
  | .opened uri text version =>
    publish { s with registry := s.registry.openDocument uri text version } disk uri
  | .changed uri changes version =>
    publish { s with registry := (s.registry.changeDocument uri changes version).1 } disk uri
  | .closed uri =>
    ({ s with registry := s.registry.closeDocument uri }, [.problems uri none []])
  | .configured settings => (s.configure settings, [])

/-- Takes note of a report. -/
def observe (s : Session) (disk : Disk) (report : Report) : Session × List Notice :=
  if s.phase = .running then s.observeRunning disk report else (s, [])

end Session

end IndentedSass
