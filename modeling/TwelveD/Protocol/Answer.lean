import TwelveD.Names.Completion
import TwelveD.Protocol.Params
import TwelveD.Text.Edit

/-!
# Answers as values

The forms in which definitions, hovers, edits and completion items are sent, and the form in which a
client hands a completion item back.
-/

namespace TwelveD

namespace Point

/-- A position as a value. -/
def toJson (p : Point) : Json := .object [("line", .ofNat p.row), ("character", .ofNat p.column)]

end Point

namespace Span

/-- A span as a value. -/
def toJson (s : Span) : Json := .object [("start", s.start.toJson), ("end", s.stop.toJson)]

end Span

namespace Edit

/-- An edit as a value. -/
def toJson (e : Edit) : Json :=
  .object [("range", e.span.toJson), ("newText", .string ((Bytes.toString? e.newText).getD ""))]

end Edit

namespace Markup

/-- The name of a way to show text. -/
def name : Markup → String
  | plaintext => "plaintext"
  | markdown => "markdown"

/-- Reads the name of a way to show text. -/
def ofJson? (v : Json) : Option Markup := do
  match ← v.choice? with
  | "plaintext" => some plaintext
  | "markdown" => some markdown
  | _ => none

/-- A text with the way to show it, as a value. -/
def textJson (kind : Markup) (value : String) : Json :=
  .object [("kind", .string kind.name), ("value", .string value)]

end Markup

namespace Hover

/-- A hover as a value. -/
def toJson (h : Hover) : Json :=
  .object [("contents", Markup.markdown.textJson h.text), ("range", h.span.toJson)]

end Hover

/-- A place in a named document as a value. -/
def locationJson (uri : String) (span : Span) : Json :=
  .object [("uri", .string uri), ("range", span.toJson)]

namespace Documentation

/-- A description as a value. -/
def toJson : Documentation → Json
  | text s => .string s
  | markup kind s => kind.textJson s

/-- Reads a description. -/
def ofJson? (v : Json) : Option Documentation :=
  match v with
  | .string s => some (text s)
  | _ => do
    let fields ← v.record? ["kind", "value"]
    some (markup (← fields.required "kind" Markup.ofJson?) (← fields.required "value" Json.text?))

end Documentation

namespace CompletionItem

/-- A completion item as a value. -/
def toJson (item : CompletionItem) : Json :=
  .ofMembers ([("label", some (.string item.label)), ("kind", item.kind.map .ofInt),
    ("detail", item.detail.map .string),
    ("documentation", item.documentation.map Documentation.toJson)] ++
    item.rest.map fun (key, value) => (key, some value))

/-! ## Items that come back from a client -/

/-- A string, as it is. -/
def keepText? (v : Json) : Option Json := v.text?.map .string

/-- A boolean, as it is. -/
def keepFlag? (v : Json) : Option Json := v.flag?.map .bool

/-- A number of 32 bits, as it is. -/
def keepInt? (v : Json) : Option Json := v.int32?.map .ofInt

/-- A list of values that are kept. -/
def keepList? (keep? : Json → Option Json) (v : Json) : Option Json := (v.list? keep?).map .array

/-- A remark behind a label. -/
def keepLabelDetails? (v : Json) : Option Json := do
  let fields ← v.record? ["detail", "description"]
  some (.ofMembers [("detail", ← fields.optional "detail" keepText?),
    ("description", ← fields.optional "description" keepText?)])

/-- A command to run. -/
def keepCommand? (v : Json) : Option Json := do
  let fields ← v.record? ["title", "command", "arguments"]
  some (.ofMembers [("title", some (← fields.required "title" keepText?)),
    ("command", some (← fields.required "command" keepText?)),
    ("arguments", ← fields.optional "arguments" (keepList? some))])

/-- A replacement of text. -/
def keepEdit? (v : Json) : Option Json := do
  let fields ← v.record? ["range", "newText"]
  let span ← fields.required "range" Params.span?
  some (.object [("range", span.toJson), ("newText", ← fields.required "newText" keepText?)])

/-- A text with the stretches that it is inserted into or replaces. -/
def keepInsertReplace? (v : Json) : Option Json := do
  let fields ← v.record? ["newText", "insert", "replace"]
  let insert ← fields.required "insert" Params.span?
  let replace ← fields.required "replace" Params.span?
  some (.object [("newText", ← fields.required "newText" keepText?), ("insert", insert.toJson),
    ("replace", replace.toJson)])

/-- The fields that are only handed back, and how each of them is checked. -/
def keptFields : List (String × (Json → Option Json)) :=
  [("labelDetails", keepLabelDetails?), ("deprecated", keepFlag?), ("preselect", keepFlag?),
    ("sortText", keepText?), ("filterText", keepText?), ("insertText", keepText?),
    ("insertTextFormat", keepInt?), ("insertTextMode", keepInt?),
    ("textEdit", fun v => (keepEdit? v).or (keepInsertReplace? v)),
    ("additionalTextEdits", keepList? keepEdit?), ("command", keepCommand?),
    ("commitCharacters", keepList? keepText?), ("data", some), ("tags", keepList? keepInt?)]

/-- The keys of an item in their order. -/
def keys : List String :=
  ["label", "labelDetails", "kind", "detail", "documentation", "deprecated", "preselect",
    "sortText", "filterText", "insertText", "insertTextFormat", "insertTextMode", "textEdit",
    "additionalTextEdits", "command", "commitCharacters", "data", "tags"]

/-- Reads a completion item. -/
def ofJson? (v : Json) : Option CompletionItem := do
  let fields ← v.record? keys
  let kept ← keptFields.mapM fun (key, keep?) => do
    some ((← fields.optional key keep?).map fun value => (key, value))
  some ⟨← fields.required "label" Json.text?, ← fields.optional "kind" Json.int32?,
    ← fields.optional "detail" Json.text?, ← fields.optional "documentation" Documentation.ofJson?,
    kept.filterMap id⟩

end CompletionItem

end TwelveD
