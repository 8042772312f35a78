import TwelveD.Proofs.Sessions

/-!
# What an answer depends on

The answer to a request is made of the configuration, of the request itself and of the text of the one
document that the request names. Two sessions that agree on these give the same answer, whatever else
has happened in them.
-/

namespace TwelveD

namespace Params

/-- The document that parameters name. -/
def named? (params : Json) : Option String := (params.member? "textDocument").bind document?

variable {params : Json} {fields : Json.Fields} {place : Place} {uri : String}

/-! ## The named document -/

theorem named?_eq (hfields : params.objectFields? = some fields) :
    named? params = fields.required "textDocument" document? := by
  cases params with
  | object members =>
    obtain rfl := Option.some.inj hfields
    rfl
  | null | bool | number | string | array => cases hfields

theorem named?_of_place? (hfields : params.objectFields? = some fields)
    (h : place? fields = some place) : named? params = some place.uri := by
  simp only [place?, Option.bind_eq_bind, Option.bind_eq_some_iff] at h
  obtain ⟨uri, huri, point, -, -, -, heq⟩ := h
  obtain rfl := Option.some.inj heq
  rw [named?_eq hfields, huri]

theorem named?_of_hover? (h : hover? params = some place) : named? params = some place.uri := by
  obtain ⟨fields, hfields, hplace⟩ := Option.bind_eq_some_iff.mp h
  exact named?_of_place? hfields hplace

theorem named?_of_definition? (h : definition? params = some place) :
    named? params = some place.uri := by
  simp only [definition?, Option.bind_eq_bind, Option.bind_eq_some_iff] at h
  obtain ⟨fields, hfields, -, -, hplace⟩ := h
  exact named?_of_place? hfields hplace

theorem named?_of_completion? (h : completion? params = some place) :
    named? params = some place.uri := by
  simp only [completion?, Option.bind_eq_bind, Option.bind_eq_some_iff] at h
  obtain ⟨fields, hfields, -, -, -, -, hplace⟩ := h
  exact named?_of_place? hfields hplace

theorem named?_of_formatting? (h : formatting? params = some uri) : named? params = some uri := by
  simp only [formatting?, Option.bind_eq_bind, Option.bind_eq_some_iff] at h
  obtain ⟨fields, hfields, name, hname, -, -, -, -, heq⟩ := h
  obtain rfl := Option.some.inj heq
  rw [named?_eq hfields, hname]

end Params

namespace Server

variable {parse : Parser} {s s' : Server} {params : Json}

/-! ## Answers -/

/-- The text of a document. -/
def text? (s : Server) (uri : String) : Option String := (s.store.get? uri).map Document.text

theorem tree?_eq (s : Server) (parse : Parser) (uri : String) :
    s.tree? parse uri = (s.text? uri).bind parse := by
  unfold tree? text?
  cases s.store.get? uri <;> rfl

theorem read_bind_of_some {α : Type} {method : Method} {read? : Json → Option α} {p : α}
    (h : read? params = some p) (f : α → Json) :
    (do let p ← read method params read?; return f p : Except RequestError Json) = .ok (f p) := by
  rw [read, h]
  rfl

theorem read_bind_congr {α : Type} {method : Method} {read? : Json → Option α} {f g : α → Json}
    (h : ∀ p ∈ read? params, f p = g p) :
    (do let p ← read method params read?; return f p : Except RequestError Json) =
      (do let p ← read method params read?; return g p) := by
  unfold read
  cases hp : read? params with
  | none => rfl
  | some p => exact congrArg Except.ok (h p hp)

/-- No answer looks at more than the configuration and the text of the document that is named. -/
theorem answer_congr (hconfig : s.config = s'.config)
    (htext : ∀ uri ∈ Params.named? params, s.text? uri = s'.text? uri) (method : Method) :
    s.answer parse method params = s'.answer parse method params := by
  have htree : ∀ uri ∈ Params.named? params, s.tree? parse uri = s'.tree? parse uri := by
    intro uri huri
    rw [tree?_eq, tree?_eq, htext uri huri]
  cases method with
  | completion =>
    refine read_bind_congr fun place hplace => ?_
    rw [completions?, completions?, htree place.uri (Params.named?_of_completion? hplace), hconfig]
  | definition =>
    refine read_bind_congr fun place hplace => ?_
    rw [htree place.uri (Params.named?_of_definition? hplace)]
  | formatting =>
    refine read_bind_congr fun uri huri => ?_
    rw [htree uri (Params.named?_of_formatting? huri)]
  | hover =>
    refine read_bind_congr fun place hplace => ?_
    rw [htree place.uri (Params.named?_of_hover? hplace)]
  | introduce | shutdown | completionResolve | reserved | unknown => rfl
  | initialized | exit | didOpen | didChange => rfl

/-! ## Requests -/

theorem handle_request {method : String} (h : method ∉ Method.silentNames) (id : RequestId)
    (params : Json) : s.handle parse (.request id method params) =
      ({ s with phase := if method = "shutdown" then .shuttingDown else s.phase },
        some ⟨id, s.answer parse (.ofName method) params⟩) := by
  have hsilent : ¬ (Method.ofName method).isNotification = true := by
    rwa [Method.isNotification_ofName_iff]
  have hshutdown := Method.ofName_eq_iff method (p := ("shutdown", .shutdown)) (by decide)
  rw [handle, if_neg hsilent, afterRequest]
  by_cases heq : method = "shutdown"
  · rw [if_pos (hshutdown.mpr heq), if_pos heq]
  · rw [if_neg fun hm => heq (hshutdown.mp hm), if_neg heq]

/-- Two sessions of one configuration are asked the same. If the document that the parameters name has
    the same text in both, or is in neither, they reply the same, whatever their phases, the versions of
    that document and the other documents are. A request changes no document in any session, and no
    phase unless it asks for the end of the session. -/
theorem replies_depend_on_named_text (parse : Parser) (s s' : Server)
    (hconfig : s.config = s'.config) (id : RequestId) (method : String) (params : Json)
    (hmethod : method ∉ Method.silentNames)
    (htext : ∀ uri ∈ Params.named? params, s.text? uri = s'.text? uri) :
    (∃ reply, (s.handle parse (.request id method params)).2 = some reply ∧
      (s'.handle parse (.request id method params)).2 = some reply) ∧
    ∀ r : Server, (r.handle parse (.request id method params)).1.store = r.store ∧
      (method ≠ "shutdown" → (r.handle parse (.request id method params)).1.phase = r.phase) := by
  constructor
  · refine ⟨⟨id, s.answer parse (.ofName method) params⟩, ?_, ?_⟩
    · rw [handle_request hmethod]
    · rw [handle_request hmethod, answer_congr hconfig htext]
  · intro r
    rw [handle_request hmethod]
    refine ⟨rfl, fun hshutdown => ?_⟩
    rw [if_neg hshutdown]

/-- A document in a new session. -/
def freshSession : Server := ⟨.default, .running, ⟨[("file:///a", ⟨"x  ", 1⟩)]⟩⟩

/-- The same text after some time, with another document, in a session that shuts down. -/
def oldSession : Server :=
  ⟨.default, .shuttingDown, ⟨[("file:///b", ⟨"y", 1⟩), ("file:///a", ⟨"x  ", 9⟩)]⟩⟩

/-- A request to lay out the document. -/
def layoutParams : Json :=
  .object [("options", .object [("tabSize", .ofNat 4), ("insertSpaces", .bool true)]),
    ("textDocument", .object [("uri", .string "file:///a")])]

theorem named?_layoutParams : Params.named? layoutParams = some "file:///a" := by
  with_unfolding_all rfl

theorem replies_depend_on_named_text_oldSession :
    freshSession.config = oldSession.config ∧ freshSession ≠ oldSession ∧
      freshSession.text? "file:///a" = oldSession.text? "file:///a" ∧
      ∃ reply,
        (freshSession.handle (fun text => some (.bare (Bytes.ofString text)))
          (.request (.number 1) "textDocument/formatting" layoutParams)).2 = some reply ∧
        (oldSession.handle (fun text => some (.bare (Bytes.ofString text)))
          (.request (.number 1) "textDocument/formatting" layoutParams)).2 = some reply := by
  have htext : ∀ uri ∈ Params.named? layoutParams,
      freshSession.text? uri = oldSession.text? uri := by
    intro uri huri
    obtain rfl := Option.some.inj (named?_layoutParams.symm.trans huri)
    decide
  refine ⟨rfl, by decide, by decide, ?_⟩
  exact (replies_depend_on_named_text _ freshSession oldSession rfl (.number 1)
    "textDocument/formatting" layoutParams (by decide) htext).1

end Server

end TwelveD
