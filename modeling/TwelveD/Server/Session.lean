import TwelveD.Layout.Document
import TwelveD.Protocol.Answer
import TwelveD.Protocol.Frame
import TwelveD.Protocol.Message
import TwelveD.Protocol.Method
import TwelveD.Server.Config
import TwelveD.Server.Store

/-!
# Sessions

A server holds the documents that clients have opened and answers requests about them, each on the
tree of the document's current text. How a text becomes a tree is a parameter, `Parser`, and so is
what is said about parameters that cannot be read, `Explanation`. Messages are handled one after the
other: `Server.handle` takes a decoded message, `Server.receive` the bytes of one, and `Server.serve`
a whole stream of frames.
-/

namespace TwelveD

/-- The way from a text to its tree; it may fail. -/
abbrev Parser := String → Option SyntaxTree

/-- How far a session has come. -/
inductive Phase where
  | running
  /-- The client has asked for the end. Requests are still answered. -/
  | shuttingDown
  /-- The client has ended the session. -/
  | terminated
  deriving DecidableEq, Repr

/-- A session. -/
structure Server where
  config : Config
  phase : Phase
  store : Store
  deriving DecidableEq, Repr

namespace Server

/-- The name of the server. -/
def name : String := "pl12d-lsp"

/-- The version of the server. -/
def version : String := "0.1.0"

/-- A new session. -/
def start (config : Config) : Server := ⟨config, .running, .empty⟩

/-- What the server can do: documents are sent as a whole, completion items can be resolved, and
    there are hovers, definitions and layout. -/
def capabilities : Json :=
  .object [("textDocumentSync", .ofNat 1),
    ("completionProvider", .object [("resolveProvider", .bool true)]),
    ("hoverProvider", .bool true), ("definitionProvider", .bool true),
    ("documentFormattingProvider", .bool true)]

/-- The answer to a client that introduces itself. -/
def introduction : Json :=
  .object [("capabilities", capabilities),
    ("serverInfo", .object [("name", .string name), ("version", .string version)])]

/-! ## Requests -/

/-- The tree of a document's current text. -/
def tree? (s : Server) (parse : Parser) (uri : String) : Option SyntaxTree := do
  parse (← s.store.get? uri).text

/-- What the parameters of a method say, or the error that they could not be read. -/
def read {α : Type} (method : Method) (params : Json) (read? : Json → Option α) :
    Except RequestError α :=
  match read? params with
  | some p => .ok p
  | none => .error (.invalidParams method params)

/-- The completions at a place. -/
def completions? (s : Server) (parse : Parser) (place : Params.Place) :
    Option (List CompletionItem) :=
  (s.tree? parse place.uri).map fun t =>
    if s.config.filterCompletions then t.itemsAt place.point else CompletionItem.vocabulary

/-- The result of a request. A document that is not open has no definitions, hovers, completions or
    edits. -/
def answer (s : Server) (parse : Parser) (method : Method) (params : Json) :
    Except RequestError Json :=
  match method with
  | .introduce => .ok introduction
  | .shutdown => .ok .null
  | .completion => do
    let place ← read method params Params.completion?
    let items := s.completions? parse place
    return .ofOption (items.map fun items => .array (items.map CompletionItem.toJson))
  | .completionResolve => do
    let item ← read method params CompletionItem.ofJson?
    return item.withDocumentation.toJson
  | .definition => do
    let place ← read method params Params.definition?
    let span := (s.tree? parse place.uri).bind fun t => t.definitionAt? place.point
    return .ofOption (span.map (locationJson place.uri))
  | .formatting => do
    let uri ← read method params Params.formatting?
    let edits := ((s.tree? parse uri).map SyntaxTree.layoutEdits).getD []
    return .array (edits.map Edit.toJson)
  | .hover => do
    let place ← read method params Params.hover?
    let hover := (s.tree? parse place.uri).bind fun t => t.hoverAt? place.point
    return .ofOption (hover.map Hover.toJson)
  | _ => .error .methodNotFound

/-! ## Messages -/

/-- The session after a document was opened; documents in other languages are none of its
    business. -/
def openDocument (s : Server) (d : Params.Opened) : Server :=
  if d.languageId = s.config.languageId
  then { s with store := s.store.put d.uri ⟨d.text, d.version⟩ }
  else s

/-- The session after a document was changed. The last text counts. -/
def changeDocument (s : Server) (d : Params.Changed) : Server :=
  match d.texts.getLast? with
  | some text => { s with store := s.store.put d.uri ⟨text, d.version⟩ }
  | none => s

/-- The session after a notification. -/
def notify (s : Server) (method : Method) (params : Json) : Server :=
  match method with
  | .exit => { s with phase := .terminated }
  | .didOpen => ((Params.opened? params).map s.openDocument).getD s
  | .didChange => ((Params.changed? params).map s.changeDocument).getD s
  | _ => s

/-- The session after a request. -/
def afterRequest (s : Server) (method : Method) : Server :=
  if method = .shutdown then { s with phase := .shuttingDown } else s

/-- The session after a message, and the reply. A notification that is sent as a request is treated
    as a notification. -/
def handle (s : Server) (parse : Parser) : Message → Server × Option Reply
  | .request id method params =>
    let method := Method.ofName method
    if method.isNotification then (s.notify method params, none)
    else (s.afterRequest method, some ⟨id, s.answer parse method params⟩)
  | .notification method params => (s.notify (Method.ofName method) params, none)
  | .response _ => (s, none)

/-- The session after the bytes of a message, and the bytes of the reply in their frame. Bytes that
    are no message change nothing. -/
def receive (s : Server) (parse : Parser) (body : Bytes) (explain : Explanation := .silent) :
    Server × Bytes :=
  match Message.ofBytes? body with
  | none => (s, [])
  | some message =>
    let handled := s.handle parse message
    (handled.1, (handled.2.map fun r => Frame.write (r.encode explain)).getD [])

/-! ## Streams -/

/-- How serving a stream ends. -/
inductive Ending where
  /-- The stream has ended, or the client has ended the session. -/
  | finished
  /-- The next frame cannot be found. -/
  | failed (error : FramingError)
  /-- The reader has given up. -/
  | aborted
  deriving DecidableEq, Repr

/-- What serving a stream comes to. -/
structure Served where
  ending : Ending
  /-- The session afterwards. -/
  server : Server
  /-- The bytes that were sent. -/
  output : Bytes
  /-- The bytes that were not read. -/
  rest : Bytes
  deriving DecidableEq, Repr

/-- What was served, with some output before it. -/
def Served.after (output : Bytes) (r : Served) : Served := { r with output := output ++ r.output }

/-- Serves a stream of frames until it ends, the client ends the session, or the next frame cannot
    be found. -/
def serve (parse : Parser) (s : Server) (stream : Bytes) (explain : Explanation := .silent) :
    Served :=
  if s.phase = .terminated then ⟨.finished, s, [], stream⟩
  else
    match h : (Frame.read stream).1 with
    | .ended => ⟨.finished, s, [], (Frame.read stream).2⟩
    | .aborted => ⟨.aborted, s, [], (Frame.read stream).2⟩
    | .failed e =>
      have := Frame.length_read_lt (s := stream) (by simp [h])
      if e.isRecoverable then serve parse s (Frame.read stream).2 explain
      else ⟨.failed e, s, [], (Frame.read stream).2⟩
    | .body body =>
      have := Frame.length_read_lt (s := stream) (by simp [h])
      let received := s.receive parse body explain
      (serve parse received.1 (Frame.read stream).2 explain).after received.2
termination_by stream.length

end Server

end TwelveD
