import TwelveD.Proofs.Sessions

/-!
# Replies over whole sessions

Serving a stream of frames sends one reply for every request that asks for one, in the order of the
requests, and nothing else. A reply is a value, and what is sent of it is its text.
-/

namespace TwelveD

/-- Whether a message is a request that asks for a reply. -/
def Message.awaitsReply : Message → Bool
  | .request _ method _ => !Method.silentNames.contains method
  | _ => false

/-- What a client finds in the reply to a request: the identifier of the request, and either a result
    or an error. The error says that there is no such method exactly if the name is unknown or starts
    with the mark of the optional methods. -/
structure IsReplyTo (id : RequestId) (method : String) (v : Json) : Prop where
  /-- It has the identifier of the request. -/
  id_eq : v.member? "id" = some id.toJson
  /-- It has a result or an error, and not both. -/
  one : (v.member? "result").isSome = !(v.member? "error").isSome
  /-- It says that there is no such method exactly for the names without a meaning. -/
  code : (∃ e, v.member? "error" = some e ∧ e.member? "code" = some (.ofInt (-32601))) ↔
    method ∉ Method.knownNames ∨ "$/".toList <+: method.toList

namespace Server

variable {parse : Parser} {explain : Explanation} {s : Server}

/-! ## Single replies -/

theorem read_bind_ne {α : Type} (method : Method) (params : Json) (read? : Json → Option α)
    (f : α → Json) : (do let p ← read method params read?; return f p) ≠
      (.error .methodNotFound : Except RequestError Json) := by
  unfold read
  cases read? params <;> simp [bind, Except.bind, pure, Except.pure]

/-- Methods with a name of their own are found. -/
theorem answer_ne_methodNotFound {name : String} {method : Method}
    (h : (name, method) ∈ Method.known) (hmethod : method.isNotification = false) (params : Json) :
    s.answer parse method params ≠ .error .methodNotFound := by
  cases method with
  | introduce | shutdown => simp [answer]
  | initialized | exit | didOpen | didChange => cases hmethod
  | completion | completionResolve | definition | formatting | hover => exact read_bind_ne _ params _ _
  | reserved | unknown => simp [Method.known] at h

/-- A request fails for want of a method exactly if its name is not known. -/
theorem answer_eq_methodNotFound_iff {name : String} (hname : name ∉ Method.silentNames)
    (params : Json) : s.answer parse (.ofName name) params = .error .methodNotFound ↔
      name ∉ Method.knownNames := by
  have hmethod : (Method.ofName name).isNotification = false := by
    rwa [← Bool.not_eq_true, Method.isNotification_ofName_iff]
  rcases Method.ofName_cases name with h | ⟨hnot, h | h⟩
  · have hknown : name ∈ Method.knownNames := List.mem_map.mpr ⟨_, h, rfl⟩
    simp only [answer_ne_methodNotFound h hmethod, hknown, not_true_eq_false]
  · simp [h, answer, hnot]
  · simp [h, answer, hnot]

theorem not_isPrefix_of_mem_knownNames {name : String} (h : name ∈ Method.knownNames) :
    ¬ "$/".toList <+: name.toList := by
  revert name
  decide

/-- The reply to a request has the form that a client expects. -/
theorem isReplyTo_toJson (id : RequestId) {name : String} (hname : name ∉ Method.silentNames)
    (params : Json) :
    IsReplyTo id name (Reply.toJson ⟨id, s.answer parse (.ofName name) params⟩ explain) := by
  have hcode : name ∉ Method.knownNames ∨ "$/".toList <+: name.toList ↔
      s.answer parse (.ofName name) params = .error .methodNotFound := by
    rw [answer_eq_methodNotFound_iff hname, or_iff_left_of_imp]
    exact fun hstart hmem => not_isPrefix_of_mem_knownNames hmem hstart
  cases h : s.answer parse (.ofName name) params with
  | ok v =>
    refine ⟨rfl, rfl, ?_⟩
    rw [hcode, h]
    have herror : (Reply.toJson ⟨id, .ok v⟩ explain).member? "error" = none := rfl
    simp [herror]
  | error e =>
    refine ⟨rfl, rfl, ?_⟩
    rw [hcode, h]
    have herror : (Reply.toJson ⟨id, .error e⟩ explain).member? "error" =
        some (.object [("code", .ofInt e.code), ("message", .string (e.message explain))]) := rfl
    have hmember : Json.member? "code"
        (.object [("code", .ofInt e.code), ("message", .string (e.message explain))]) =
          some (.ofInt e.code) := rfl
    simp only [herror, Option.some.injEq, exists_eq_left', hmember]
    cases e <;> simp [Json.ofInt, RequestError.code]

/-- A value that answers a message. -/
def Answers (m : Message) (v : Json) : Prop :=
  ∃ id method params, m = .request id method params ∧ IsReplyTo id method v

/-- A request that asks for a reply gets one. -/
theorem exists_reply_of_awaitsReply (parse : Parser) (explain : Explanation) (s : Server)
    {m : Message} (h : m.awaitsReply = true) :
    ∃ r, (s.handle parse m).2 = some r ∧ Answers m (r.toJson explain) := by
  cases m with
  | request id method params =>
    have hname : method ∉ Method.silentNames := by simpa [Message.awaitsReply] using h
    refine ⟨⟨id, s.answer parse (.ofName method) params⟩, ?_, id, method, params, rfl,
      isReplyTo_toJson id hname params⟩
    rw [handle, if_neg (by rwa [Method.isNotification_ofName_iff])]
  | response id => cases h
  | notification method params => cases h

/-- Nothing else gets a reply. -/
theorem handle_of_not_awaitsReply {m : Message} (h : m.awaitsReply = false) :
    (s.handle parse m).2 = none := by
  cases m with
  | request id method params =>
    have hname : method ∈ Method.silentNames := by simpa [Message.awaitsReply] using h
    rw [handle, if_pos (Method.isNotification_ofName_iff.mpr hname)]
  | response id => rfl
  | notification method params => rfl

theorem receive_snd_eq_nil {body : Bytes}
    (h : ∀ m ∈ Message.ofBytes? body, m.awaitsReply = false) :
    (s.receive parse body explain).2 = [] := by
  unfold receive
  cases hm : Message.ofBytes? body with
  | none => rfl
  | some m => simp [handle_of_not_awaitsReply (h m hm)]

/-! ## Runs -/

/-- The replies to messages are the replies to those that ask for one, in order. -/
theorem forall₂_replies (explain : Explanation) (messages : List Message) :
    List.Forall₂ Answers (messages.filter Message.awaitsReply)
      ((s.replies parse messages).map (·.toJson explain)) := by
  induction messages generalizing s with
  | nil => exact .nil
  | cons m messages ih =>
    rw [replies]
    by_cases hm : m.awaitsReply = true
    · obtain ⟨r, hr, hanswers⟩ := exists_reply_of_awaitsReply parse explain s hm
      rw [List.filter_cons_of_pos hm, hr]
      exact .cons hanswers ih
    · rw [List.filter_cons_of_neg hm, handle_of_not_awaitsReply (by simpa using hm)]
      exact ih

/-- Whatever the state of a session that has not ended, serving frames sends one reply for each
    request that asks for one, up to the message that ends the session, in the order of the requests,
    and no other byte: each reply answers its request, and its text is the body of a frame. If each text
    fits a buffer, reading the output gives the texts and then its end. A body that is no request that
    asks for a reply makes nothing be sent. -/
theorem serve_replies_in_order (parse : Parser) (explain : Explanation) (s : Server)
    (hs : s.phase ≠ .terminated) (bodies : List Bytes)
    (hbodies : ∀ body ∈ bodies, body.length < Frame.bufferLimit) :
    (∃ replies : List Json,
      List.Forall₂ Answers
        ((Message.untilExit (bodies.filterMap Message.ofBytes?)).filter Message.awaitsReply)
        replies ∧
      (serve parse s (Frame.writeAll bodies) explain).output =
        Frame.writeAll (replies.map fun v => Bytes.ofString v.write) ∧
      ((∀ v ∈ replies, (Bytes.ofString v.write).length < Frame.bufferLimit) →
        Frame.readAll (serve parse s (Frame.writeAll bodies) explain).output =
          some (replies.map fun v => Bytes.ofString v.write))) ∧
    ∀ (s' : Server) (body : Bytes), (∀ m ∈ Message.ofBytes? body, m.awaitsReply = false) →
      (s'.receive parse body explain).2 = [] := by
  obtain ⟨-, hout⟩ := serve_writeAll parse explain hs hbodies
  have htexts : ∀ replies : List Reply, replies.map (·.encode explain) =
      (replies.map (·.toJson explain)).map fun v => Bytes.ofString v.write := by
    intro replies
    rw [List.map_map]
    rfl
  rw [htexts] at hout
  refine ⟨⟨_, forall₂_replies explain _, hout, fun hfits => ?_⟩, fun s' body h =>
    receive_snd_eq_nil h⟩
  rw [hout]
  refine Frame.readAll_writeAll fun body hbody => ?_
  obtain ⟨v, hv, rfl⟩ := List.mem_map.mp hbody
  exact hfits v hv

/-- A request for an optional method, a request that is answered, the end of the session sent as a
    request, and a request that comes too late. -/
def shortSession : List Bytes :=
  [Bytes.ofString "\x7b\"id\":7,\"method\":\"$/ping\"\x7d",
    Bytes.ofString "\x7b\"id\":\"s\",\"method\":\"shutdown\"\x7d",
    Bytes.ofString "\x7b\"id\":8,\"method\":\"exit\"\x7d",
    Bytes.ofString "\x7b\"id\":9,\"method\":\"shutdown\"\x7d"]

theorem untilExit_shortSession :
    Message.untilExit (shortSession.filterMap Message.ofBytes?) =
      [.request (.number 7) "$/ping" .null, .request (.text "s") "shutdown" .null,
        .request (.number 8) "exit" .null] := by
  with_unfolding_all rfl

/-- What is sent for these requests, byte by byte. -/
theorem serve_replies_in_order_shortSession :
    (start .default).phase ≠ .terminated ∧
      (∀ body ∈ shortSession, body.length < Frame.bufferLimit) ∧
      (serve (fun _ => none) (start .default) (Frame.writeAll shortSession)).output =
        Bytes.ofString ("Content-Length: 77\r\n\r\n" ++
          "\x7b\"jsonrpc\":\"2.0\",\"id\":7," ++
            "\"error\":\x7b\"code\":-32601,\"message\":\"unhandled method\"\x7d\x7d" ++
          "Content-Length: 40\r\n\r\n\x7b\"jsonrpc\":\"2.0\",\"id\":\"s\",\"result\":null\x7d") ∧
      ∃ replies : List Json,
        List.Forall₂ Answers
          [.request (.number 7) "$/ping" .null, .request (.text "s") "shutdown" .null] replies ∧
        (serve (fun _ => none) (start .default) (Frame.writeAll shortSession)).output =
          Frame.writeAll (replies.map fun v => Bytes.ofString v.write) := by
  have hs : (start .default).phase ≠ .terminated := by decide
  have hbodies : ∀ body ∈ shortSession, body.length < Frame.bufferLimit := by decide
  obtain ⟨⟨replies, hall, hout, -⟩, -⟩ :=
    serve_replies_in_order (fun _ => none) .silent (start .default) hs shortSession hbodies
  rw [untilExit_shortSession] at hall
  exact ⟨hs, hbodies, by decide +kernel, replies, hall, hout⟩

end Server

end TwelveD
