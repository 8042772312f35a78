import TwelveD.Proofs.Framing
import TwelveD.Server.Session

/-!
# Steps and runs of a session

What a single message does to a session, in one equation (`Server.handle_fst`), and how serving a
stream of frames comes down to handling the messages in them one after the other.
-/

namespace TwelveD

namespace Method

/-- The names of the methods that never get a reply. -/
def silentNames : List String :=
  ["initialized", "exit", "textDocument/didOpen", "textDocument/didChange"]

/-- The names with a meaning of their own. -/
def knownNames : List String := known.map Prod.fst

/-- A name has a meaning of its own, or it is reserved or unknown. -/
theorem ofName_cases (name : String) : (name, ofName name) ∈ known ∨
    (name ∉ knownNames ∧ (ofName name = .reserved name ∨ ofName name = .unknown name)) := by
  unfold ofName
  cases h : known.lookup name with
  | some m =>
    obtain ⟨before, behind, heq, -⟩ := List.lookup_eq_some_iff.mp h
    exact Or.inl (by rw [heq]; simp)
  | none =>
    refine Or.inr ⟨fun hm => ?_, ?_⟩
    · obtain ⟨⟨n, m⟩, hmem, rfl⟩ := List.mem_map.mp hm
      simpa using List.lookup_eq_none_iff.mp h _ hmem
    · simp only
      split
      · exact Or.inl rfl
      · exact Or.inr rfl

theorem isNotification_ofName_iff {name : String} :
    (ofName name).isNotification = true ↔ name ∈ silentNames := by
  have hsilent : ∀ n ∈ silentNames, n ∈ knownNames := by decide
  have hknown : ∀ p ∈ known, (p.2.isNotification = true ↔ p.1 ∈ silentNames) := by decide
  rcases ofName_cases name with h | ⟨hnot, h | h⟩
  · exact hknown _ h
  · simp only [h, isNotification, Bool.false_eq_true, false_iff]
    exact fun hm => hnot (hsilent name hm)
  · simp only [h, isNotification, Bool.false_eq_true, false_iff]
    exact fun hm => hnot (hsilent name hm)

/-- No two names have one meaning. -/
theorem ofName_eq_iff (name : String) {p : String × Method} (hp : p ∈ known) :
    ofName name = p.2 ↔ name = p.1 := by
  have hname : ∀ p ∈ known, ofName p.1 = p.2 := by decide
  have hinj : ∀ p ∈ known, ∀ q ∈ known, p.2 = q.2 → p.1 = q.1 := by decide
  have hother : ∀ p ∈ known, ∀ n, p.2 ≠ .reserved n ∧ p.2 ≠ .unknown n := by simp [known]
  refine ⟨fun h => ?_, fun h => h ▸ hname p hp⟩
  rcases ofName_cases name with hmem | ⟨-, heq | heq⟩
  · exact hinj _ hmem p hp h
  · exact absurd (h.symm.trans heq) (hother p hp name).1
  · exact absurd (h.symm.trans heq) (hother p hp name).2

end Method

namespace Message

/-! ## What a message does -/

/-- Whether a message ends the session. -/
def isExit : Message → Bool
  | .request _ method _ => method == "exit"
  | .notification method _ => method == "exit"
  | .response _ => false

/-- The phase of a session after a message. Only a request can ask for the end. -/
def phaseAfter (phase : Phase) : Message → Phase
  | .request _ method _ =>
    if method = "exit" then .terminated
    else if method = "shutdown" then .shuttingDown
    else phase
  | .notification method _ => if method = "exit" then .terminated else phase
  | .response _ => phase

/-- What a message of a given method writes into the store: the name of a document and the document.
    A document is written when it is opened in the language of the session, and when it is changed at
    least once. -/
def writeOf? (languageId method : String) (params : Json) : Option (String × Document) :=
  if method = "textDocument/didOpen" then
    (Params.opened? params).bind fun d =>
      if d.languageId = languageId then some (d.uri, ⟨d.text, d.version⟩) else none
  else if method = "textDocument/didChange" then
    (Params.changed? params).bind fun d =>
      d.texts.getLast?.map fun text => (d.uri, ⟨text, d.version⟩)
  else none

/-- What a message writes into the store. -/
def write? (languageId : String) : Message → Option (String × Document)
  | .request _ method params => writeOf? languageId method params
  | .notification method params => writeOf? languageId method params
  | .response _ => none

/-- The messages up to the one that ends the session. -/
def untilExit : List Message → List Message
  | [] => []
  | m :: ms => if m.isExit then [m] else m :: untilExit ms

/-- The messages in a stream. -/
def inStream (stream : Bytes) : List Message := (Frame.bodies stream).filterMap ofBytes?

theorem phaseAfter_eq_terminated_iff {phase : Phase} (h : phase ≠ .terminated) (m : Message) :
    m.phaseAfter phase = .terminated ↔ m.isExit = true := by
  cases m with
  | request id method params =>
    simp only [phaseAfter, isExit, beq_iff_eq]
    split
    · simp [*]
    · split <;> simp [*]
  | notification method params =>
    simp only [phaseAfter, isExit, beq_iff_eq]
    split <;> simp [*]
  | response id => simpa [phaseAfter, isExit] using h

end Message

/-- The store after a write, if there is one. -/
def Store.after (store : Store) : Option (String × Document) → Store
  | some w => store.put w.1 w.2
  | none => store

namespace Server

variable {parse : Parser} {explain : Explanation} {s : Server}

/-! ## Steps -/

/-- What a notification does: `exit` ends the session, and documents are written. -/
theorem notify_ofName (name : String) (params : Json) :
    s.notify (.ofName name) params =
      { s with
        phase := if name = "exit" then .terminated else s.phase
        store := s.store.after (Message.writeOf? s.config.languageId name params) } := by
  have hexit := Method.ofName_eq_iff name (p := ("exit", .exit)) (by decide)
  have hopen := Method.ofName_eq_iff name (p := ("textDocument/didOpen", .didOpen))
    (by decide)
  have hchange := Method.ofName_eq_iff name (p := ("textDocument/didChange", .didChange))
    (by decide)
  unfold notify Message.writeOf?
  split
  · rename_i h
    obtain rfl := hexit.mp h
    rfl
  · rename_i h
    obtain rfl := hopen.mp h
    cases Params.opened? params with
    | none => rfl
    | some d =>
      simp only [Option.map_some, Option.getD_some, Option.bind_some, openDocument]
      split <;> rfl
  · rename_i h
    obtain rfl := hchange.mp h
    cases Params.changed? params with
    | none => rfl
    | some d =>
      simp only [Option.map_some, Option.getD_some, Option.bind_some, changeDocument]
      cases d.texts.getLast? <;> rfl
  · rename_i h1 h2 h3
    rw [if_neg fun h => h1 (hexit.mpr h), if_neg fun h => h2 (hopen.mpr h),
      if_neg fun h => h3 (hchange.mpr h)]
    rfl

/-- What a message does to a session. -/
theorem handle_fst (m : Message) : (s.handle parse m).1 =
    { s with
      phase := m.phaseAfter s.phase
      store := s.store.after (m.write? s.config.languageId) } := by
  cases m with
  | request id method params =>
    simp only [handle, Message.phaseAfter, Message.write?]
    by_cases hsilent : method ∈ Method.silentNames
    · have hshutdown : method ≠ "shutdown" := by
        rintro rfl
        exact absurd hsilent (by decide)
      rw [if_pos (Method.isNotification_ofName_iff.mpr hsilent), notify_ofName, if_neg hshutdown]
    · have hexit : method ≠ "exit" := by
        rintro rfl
        exact hsilent (by decide)
      have hwrite : Message.writeOf? s.config.languageId method params = none := by
        rw [Message.writeOf?, if_neg, if_neg]
        · rintro rfl
          exact hsilent (by decide)
        · rintro rfl
          exact hsilent (by decide)
      have hshutdown := Method.ofName_eq_iff method (p := ("shutdown", .shutdown))
        (by decide)
      rw [if_neg (by rwa [Method.isNotification_ofName_iff]), if_neg hexit, hwrite, afterRequest]
      simp only [hshutdown]
      split <;> rfl
  | response id => rfl
  | notification method params => exact notify_ofName method params

/-! ## Runs -/

/-- The session after messages. -/
def run (s : Server) (parse : Parser) (messages : List Message) : Server :=
  messages.foldl (fun s m => (s.handle parse m).1) s

theorem serve_of_terminated (hs : s.phase = .terminated) (stream : Bytes) :
    serve parse s stream explain = ⟨.finished, s, [], stream⟩ := by
  rw [serve, if_pos hs]

/-- How a session goes on with what a call of the reader has found and left. -/
def resume (parse : Parser) (s : Server) (outcome : Frame.Outcome) (rest : Bytes)
    (explain : Explanation) : Served :=
  match outcome with
  | .ended => ⟨.finished, s, [], rest⟩
  | .aborted => ⟨.aborted, s, [], rest⟩
  | .failed e => if e.isRecoverable then serve parse s rest explain else ⟨.failed e, s, [], rest⟩
  | .body body =>
    let received := s.receive parse body explain
    (serve parse received.1 rest explain).after received.2

/-- Serving is reading and going on, one call of the reader after the other. -/
theorem serve_of_read (hs : s.phase ≠ .terminated) {stream rest : Bytes} {outcome : Frame.Outcome}
    (h : Frame.read stream = (outcome, rest)) :
    serve parse s stream explain = resume parse s outcome rest explain := by
  have hread : serve parse s stream explain =
      resume parse s (Frame.read stream).1 (Frame.read stream).2 explain := by
    rw [serve, if_neg hs]
    split <;> rename_i heq <;> simp only [resume, heq]
  rw [hread, h]

theorem serve_nil (s : Server) : serve parse s [] explain = ⟨.finished, s, [], []⟩ := by
  by_cases hs : s.phase = .terminated
  · exact serve_of_terminated hs []
  · exact serve_of_read hs Frame.read_nil

/-- What is sent for messages that are handled one after the other. -/
def replies (s : Server) (parse : Parser) : List Message → List Reply
  | [] => []
  | m :: ms => (s.handle parse m).2.toList ++ replies (s.handle parse m).1 parse ms

/-- Serving a stream is handling the messages in it up to the one that ends the session, whatever else
    there is in the stream. -/
theorem serve_eq_run (parse : Parser) (explain : Explanation) (hs : s.phase ≠ .terminated)
    (stream : Bytes) :
    (serve parse s stream explain).server =
        s.run parse (Message.untilExit (Message.inStream stream)) ∧
      (serve parse s stream explain).output = Frame.writeAll
        ((s.replies parse (Message.untilExit (Message.inStream stream))).map (·.encode explain)) := by
  -- by induction on the stream: each call of the reader leaves less of it
  obtain ⟨n, hn⟩ : ∃ n, stream.length = n := ⟨_, rfl⟩
  induction n using Nat.strong_induction_on generalizing s stream with
  | _ n ih =>
    rcases hread : Frame.read stream with ⟨outcome, rest⟩
    have hshorter : outcome ≠ .ended → rest.length < n := by
      intro houtcome
      have hlt := Frame.length_read_lt (s := stream) (by rw [hread]; exact houtcome)
      rw [hread, hn] at hlt
      exact hlt
    rw [serve_of_read hs hread, Message.inStream, Frame.bodies_of_read hread]
    cases outcome with
    | ended => exact ⟨rfl, rfl⟩
    | aborted => exact ⟨rfl, rfl⟩
    | failed e =>
      simp only [resume, Frame.bodiesFrom]
      split
      · exact ih _ (hshorter (by simp)) hs rest rfl
      · exact ⟨rfl, rfl⟩
    | body body =>
      have hrest := hshorter (by simp)
      simp only [resume, Frame.bodiesFrom, Served.after, receive]
      cases hm : Message.ofBytes? body with
      | none =>
        rw [List.filterMap_cons_none hm]
        exact ih _ hrest hs rest rfl
      | some m =>
        have hphase : (s.handle parse m).1.phase = .terminated ↔ m.isExit = true := by
          rw [handle_fst]
          exact Message.phaseAfter_eq_terminated_iff hs m
        rw [List.filterMap_cons_some hm, Message.untilExit]
        by_cases hexit : m.isExit = true
        · rw [if_pos hexit]
          simp only [serve_of_terminated (hphase.mpr hexit), List.append_nil, run, List.foldl_cons,
            List.foldl_nil, replies, true_and]
          cases (s.handle parse m).2 <;> simp [Frame.writeAll]
        · obtain ⟨hserver, hout⟩ := ih _ hrest (fun h => hexit (hphase.mp h)) rest rfl
          rw [if_neg hexit]
          refine ⟨hserver, ?_⟩
          simp only [hout, replies, List.map_append, Frame.writeAll_append, Message.inStream]
          cases (s.handle parse m).2 <;> simp [Frame.writeAll]

/-- Serving frames is handling the messages in them up to the one that ends the session. -/
theorem serve_writeAll (parse : Parser) (explain : Explanation) (hs : s.phase ≠ .terminated)
    {bodies : List Bytes} (hbodies : ∀ body ∈ bodies, body.length < Frame.bufferLimit) :
    (serve parse s (Frame.writeAll bodies) explain).server =
        s.run parse (Message.untilExit (bodies.filterMap Message.ofBytes?)) ∧
      (serve parse s (Frame.writeAll bodies) explain).output = Frame.writeAll
        ((s.replies parse (Message.untilExit (bodies.filterMap Message.ofBytes?))).map
          (·.encode explain)) := by
  have h := serve_eq_run parse explain hs (Frame.writeAll bodies)
  rwa [Message.inStream, Frame.bodies_writeAll hbodies] at h

end Server

end TwelveD
