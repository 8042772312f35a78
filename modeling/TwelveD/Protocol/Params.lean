import TwelveD.Json.Record
import TwelveD.Protocol.Uri
import TwelveD.Text.Position

/-!
# Parameters

What requests and notifications say, by method. Everything that has a meaning in the protocol is
checked, also where the server makes no use of it.
-/

namespace TwelveD.Params

open Json (Fields)

/-- The name of a document. -/
def uri? (v : Json) : Option String := v.text?.filter Uri.isReference

/-- A position in a document. -/
def point? (v : Json) : Option Point := do
  let fields ← v.record? ["line", "character"]
  some ⟨← fields.required "line" Json.word32?, ← fields.required "character" Json.word32?⟩

/-- A stretch of a document. -/
def span? (v : Json) : Option Span := do
  let fields ← v.record? ["start", "end"]
  some ⟨← fields.required "start" point?, ← fields.required "end" point?⟩

/-- The document that a request is about. -/
def document? (v : Json) : Option String := do
  (← v.record? ["uri"]).required "uri" uri?

/-- Checks the token under which a client wants to hear about something. -/
def checkToken (fields : Fields) (key : String) : Option Unit := do
  let _ ← fields.optional key Json.intOrText?

/-- A position in a named document. -/
structure Place where
  uri : String
  point : Point
  deriving DecidableEq, Repr

/-- The place that a request is about. -/
def place? (fields : Fields) : Option Place := do
  let place : Place := ⟨← fields.required "textDocument" document?, ← fields.required "position" point?⟩
  checkToken fields "workDoneToken"
  some place

/-- What a request for a hover says. -/
def hover? (v : Json) : Option Place := do
  place? (← v.objectFields?)

/-- What a request for a definition says. -/
def definition? (v : Json) : Option Place := do
  let fields ← v.objectFields?
  checkToken fields "partialResultToken"
  place? fields

/-- Checks how a completion was set off. -/
def completionContext? (v : Json) : Option Unit := do
  let fields ← v.record? ["triggerKind", "triggerCharacter"]
  let _ ← fields.required "triggerKind" Json.int32?
  let _ ← fields.optional "triggerCharacter" Json.text?

/-- What a request for completions says. -/
def completion? (v : Json) : Option Place := do
  let fields ← v.objectFields?
  checkToken fields "partialResultToken"
  let _ ← fields.optional "context" completionContext?
  place? fields

/-- The layout options that have a form of their own. -/
def knownLayoutOptions : List String :=
  ["tabSize", "insertSpaces", "trimTrailingWhitespace", "insertFinalNewline", "trimFinalNewlines"]

/-- Whether a value may stand for a layout option that the protocol does not know. -/
def isLayoutOption (v : Json) : Bool := v.flag?.isSome || v.intOrText?.isSome

/-- Checks layout options. -/
def layoutOptions? (v : Json) : Option Unit :=
  match v with
  | .object members => do
    let fields ← v.objectFields?
    let _ ← fields.required "tabSize" Json.word32?
    let _ ← fields.required "insertSpaces" Json.flag?
    let _ ← fields.optional "trimTrailingWhitespace" Json.flag?
    let _ ← fields.optional "insertFinalNewline" Json.flag?
    let _ ← fields.optional "trimFinalNewlines" Json.flag?
    let others := members.filter fun (key, _) => !knownLayoutOptions.contains key
    if others.all fun (key, _) => (fields key).all isLayoutOption then some () else none
  | _ => none

/-- The document that is to be laid out. -/
def formatting? (v : Json) : Option String := do
  let fields ← v.objectFields?
  let uri ← fields.required "textDocument" document?
  let _ ← fields.required "options" layoutOptions?
  checkToken fields "workDoneToken"
  some uri

/-- A document that a client has opened. -/
structure Opened where
  uri : String
  languageId : String
  version : Int
  text : String
  deriving DecidableEq, Repr

/-- What the announcement of an opened document says. -/
def opened? (v : Json) : Option Opened := do
  let document ← (← v.record? ["textDocument"]).required "textDocument" fun d =>
    d.record? ["uri", "languageId", "version", "text"]
  some ⟨← document.required "uri" uri?, ← document.required "languageId" Json.text?,
    ← document.required "version" Json.int32?, ← document.required "text" Json.text?⟩

/-- A document that a client has changed. -/
structure Changed where
  uri : String
  version : Int
  /-- The texts that the document has had one after the other. -/
  texts : List String
  deriving DecidableEq, Repr

/-- The text after a change. -/
def change? (v : Json) : Option String := do
  let fields ← v.record? ["range", "rangeLength", "text"]
  let _ ← fields.optional "range" span?
  let _ ← fields.optional "rangeLength" Json.word32?
  fields.required "text" Json.text?

/-- What the announcement of changes says. -/
def changed? (v : Json) : Option Changed := do
  let fields ← v.record? ["textDocument", "contentChanges"]
  let document ← fields.required "textDocument" fun d => d.record? ["uri", "version"]
  some ⟨← document.required "uri" uri?, ← document.required "version" Json.int32?,
    ← fields.required "contentChanges" (Json.list? change?)⟩

end TwelveD.Params
