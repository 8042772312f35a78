import TwelveD.Json.Parser
import TwelveD.Json.Printer
import TwelveD.Json.Record
import TwelveD.Protocol.Method

/-!
# Messages

A message is a request, which has an identifier and gets a reply, a notification, which gets none, or
the client's own reply to a request. A value is taken for the first of request, reply and
notification that it fits. Each of them is an object or the list of its fields, of which the last
ones may be left off where they are optional; a list that would do for a notification is a reply.
-/

namespace TwelveD

/-- What ties a reply to its request. -/
inductive RequestId where
  | number (n : Int)
  | text (s : String)
  deriving DecidableEq, Repr

namespace RequestId

/-- Reads a request's identifier. -/
def ofJson? (v : Json) : Option RequestId :=
  match v.int32?, v.text? with
  | some n, _ => some (.number n)
  | none, some s => some (.text s)
  | none, none => none

/-- A request's identifier as a value. -/
def toJson : RequestId → Json
  | .number n => .ofInt n
  | .text s => .string s

end RequestId

/-- What a client sends. -/
inductive Message where
  | request (id : RequestId) (method : String) (params : Json)
  | response (id : RequestId)
  | notification (method : String) (params : Json)

namespace Message

/-- The fields of a message, written in either way. In a list the first `least` of them have to be
    there. -/
def fields? (keys : List String) (least : Nat) : Json → Option Json.Fields
  | .array items => Json.listFields? keys least items
  | v => v.strictFields? keys

/-- Reads a request. -/
def request? (v : Json) : Option Message := do
  let fields ← fields? ["id", "method", "params"] 2 v
  some (.request (← fields.required "id" RequestId.ofJson?) (← fields.required "method" Json.text?)
    (.ofOption (fields "params")))

/-- Whether a value reports an error. -/
def isErrorReport (v : Json) : Bool :=
  let report? : Option Unit := do
    let fields ← fields? ["code", "message", "data"] 2 v
    let _ ← fields.required "code" Json.int32?
    let _ ← fields.required "message" Json.text?
  report?.isSome

/-- Reads a reply of the client. -/
def response? (v : Json) : Option Message := do
  let fields ← fields? ["id", "result", "error"] 1 v
  let id ← fields.required "id" RequestId.ofJson?
  let _ ← fields.optional "error" fun e => if isErrorReport e then some () else none
  some (.response id)

/-- Reads a notification. -/
def notification? (v : Json) : Option Message := do
  let fields ← fields? ["method", "params"] 1 v
  some (.notification (← fields.required "method" Json.text?) (.ofOption (fields "params")))

/-- Reads a message. -/
def ofJson? (v : Json) : Option Message := ((request? v).or (response? v)).or (notification? v)

/-- Reads the bytes of a message. -/
def ofBytes? (body : Bytes) : Option Message := do
  ofJson? (← Json.ofBytes? body)

end Message

/-- Why a request has no result. A result is a value from the start, so none fails to be written. -/
inductive RequestError where
  /-- Nobody answers requests of this name. -/
  | methodNotFound
  /-- The parameters do not have the form that the method asks for. -/
  | invalidParams (method : Method) (params : Json)

/-- What the reader of parameters says when it refuses some, if it says anything. -/
abbrev Explanation := Method → Json → Option String

/-- The reader of parameters says nothing. -/
def Explanation.silent : Explanation := fun _ _ => none

namespace RequestError

/-- The number of an error. -/
def code : RequestError → Int
  | methodNotFound => -32601
  | invalidParams _ _ => -32602

/-- The wording of an error. -/
def message (explain : Explanation) : RequestError → String
  | methodNotFound => "unhandled method"
  | invalidParams method params =>
    match explain method params with
    | some reason => "invalid params: " ++ reason
    | none => "invalid params"

end RequestError

/-- The answer to a request. -/
structure Reply where
  /-- The identifier of the request. -/
  id : RequestId
  /-- The result, or why there is none. -/
  result : Except RequestError Json

namespace Reply

/-- A reply as a value. -/
def toJson (r : Reply) (explain : Explanation := .silent) : Json :=
  let outcome := match r.result with
    | .ok v => ("result", v.tidy)
    | .error e =>
      ("error", .object [("code", .ofInt e.code), ("message", .string (e.message explain))])
  .object [("jsonrpc", .string "2.0"), ("id", r.id.toJson), outcome]

/-- The bytes of a reply. -/
def encode (r : Reply) (explain : Explanation := .silent) : Bytes :=
  Bytes.ofString (r.toJson explain).write

end Reply

end TwelveD
