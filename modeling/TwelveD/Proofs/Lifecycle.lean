import TwelveD.Proofs.Documents
import TwelveD.Proofs.Streams

/-!
# The life of a session

A session runs, is asked to shut down and ends, in this order and never back. This is no law of single
messages: a request to shut down has its effect in every phase. It holds because nothing is handled
behind the message that ends the session, neither in the same stream nor in a later one.
-/

namespace TwelveD

/-- How far a phase is from the start of the session. -/
def Phase.rank : Phase → Nat
  | .running => 0
  | .shuttingDown => 1
  | .terminated => 2

namespace Message

/-- Whether a message asks for the end of the session. Only a request can. -/
def isShutdown : Message → Bool
  | .request _ method _ => method == "shutdown"
  | _ => false

/-- The messages that are handled when streams are served one after the other. -/
def handledIn (streams : List Bytes) : List Message := untilExit (streams.flatMap inStream)

/-! ## Messages up to the end of the session -/

theorem untilExit_append (messages later : List Message) : untilExit (messages ++ later) =
    if messages.any isExit then untilExit messages else messages ++ untilExit later := by
  induction messages with
  | nil => rfl
  | cons m messages ih =>
    rw [List.cons_append, untilExit, untilExit, ih, List.any_cons]
    by_cases hm : m.isExit = true
    · simp [hm]
    · by_cases hexit : messages.any isExit = true <;> simp [hm, hexit]

theorem untilExit_of_not_any {messages : List Message} (h : ¬ messages.any isExit = true) :
    untilExit messages = messages := by
  have := untilExit_append messages []
  rwa [if_neg h, List.append_nil, untilExit, List.append_nil] at this

theorem any_isExit_untilExit (messages : List Message) :
    (untilExit messages).any isExit = messages.any isExit := by
  induction messages with
  | nil => rfl
  | cons m messages ih =>
    rw [untilExit]
    by_cases hm : m.isExit = true
    · simp [hm]
    · simp [hm, ih]

theorem untilExit_of_append {messages before behind : List Message}
    (h : untilExit messages = before ++ behind) : untilExit before = before := by
  induction messages generalizing before with
  | nil =>
    obtain ⟨rfl, -⟩ := List.append_eq_nil_iff.mp h.symm
    rfl
  | cons m messages ih =>
    cases before with
    | nil => rfl
    | cons b before =>
      rw [untilExit] at h
      by_cases hm : m.isExit = true
      · rw [if_pos hm, List.cons_append] at h
        obtain ⟨rfl, hnil⟩ := List.cons.inj h
        obtain ⟨rfl, -⟩ := List.append_eq_nil_iff.mp hnil.symm
        rw [untilExit, if_pos hm]
      · rw [if_neg hm, List.cons_append] at h
        obtain ⟨rfl, hrest⟩ := List.cons.inj h
        rw [untilExit, if_neg hm, ih hrest]

theorem exists_handledIn_append (streams later : List Bytes) :
    ∃ behind, handledIn (streams ++ later) = handledIn streams ++ behind := by
  unfold handledIn
  rw [List.flatMap_append, untilExit_append]
  by_cases hexit : (streams.flatMap inStream).any isExit = true
  · rw [if_pos hexit]
    exact ⟨[], (List.append_nil _).symm⟩
  · rw [if_neg hexit, untilExit_of_not_any hexit]
    exact ⟨_, rfl⟩

/-! ## The phase after messages -/

/-- The phase that messages lead to: the end if one of them ends the session, else the phase before
    the end if one of them asks for it. -/
def phaseAfterAll (phase : Phase) (messages : List Message) : Phase :=
  if messages.any isExit then .terminated
  else if messages.any isShutdown then .shuttingDown
  else phase

theorem phaseAfter_of_not_isExit {m : Message} (hm : ¬ m.isExit = true) (phase : Phase) :
    m.phaseAfter phase = if m.isShutdown then .shuttingDown else phase := by
  cases m with
  | request id method params =>
    have hexit : method ≠ "exit" := by simpa [isExit] using hm
    simp [phaseAfter, isShutdown, hexit]
  | notification method params =>
    have hexit : method ≠ "exit" := by simpa [isExit] using hm
    simp [phaseAfter, isShutdown, hexit]
  | response id => rfl

theorem phaseAfterAll_cons {m : Message} (hm : ¬ m.isExit = true) (phase : Phase)
    (messages : List Message) :
    phaseAfterAll phase (m :: messages) = phaseAfterAll (m.phaseAfter phase) messages := by
  unfold phaseAfterAll
  rw [List.any_cons, List.any_cons, phaseAfter_of_not_isExit hm]
  by_cases hexit : messages.any isExit = true
  · simp [hexit]
  · by_cases hshutdown : m.isShutdown = true
    · simp [hm, hexit, hshutdown]
    · simp [hm, hexit, hshutdown]

theorem phaseAfterAll_eq_iff (messages : List Message) :
    (phaseAfterAll .running messages = .terminated ↔ ∃ m ∈ messages, m.isExit = true) ∧
    (phaseAfterAll .running messages = .shuttingDown ↔
      (¬ ∃ m ∈ messages, m.isExit = true) ∧ ∃ m ∈ messages, m.isShutdown = true) ∧
    (phaseAfterAll .running messages = .running ↔
      (¬ ∃ m ∈ messages, m.isExit = true) ∧ ¬ ∃ m ∈ messages, m.isShutdown = true) := by
  unfold phaseAfterAll
  rw [← List.any_eq_true, ← List.any_eq_true]
  cases messages.any isExit <;> cases messages.any isShutdown <;> decide

theorem rank_phaseAfterAll_le (before behind : List Message) :
    (phaseAfterAll .running before).rank ≤ (phaseAfterAll .running (before ++ behind)).rank := by
  unfold phaseAfterAll
  rw [List.any_append, List.any_append]
  by_cases hexit : before.any isExit = true
  · simp [hexit]
  · by_cases hshutdown : before.any isShutdown = true
    · by_cases hexit' : behind.any isExit = true <;> simp [hexit, hshutdown, hexit', Phase.rank]
    · simp [hexit, hshutdown, Phase.rank]

end Message

namespace Server

variable {parse : Parser} {explain : Explanation} {s : Server}

/-! ## Calls in a row -/

theorem run_append (messages later : List Message) :
    s.run parse (messages ++ later) = (s.run parse messages).run parse later :=
  List.foldl_append

theorem replies_append (messages later : List Message) : s.replies parse (messages ++ later) =
    s.replies parse messages ++ (s.run parse messages).replies parse later := by
  induction messages generalizing s with
  | nil => rfl
  | cons m messages ih =>
    rw [List.cons_append, replies, replies, ih, List.append_assoc]
    rfl

theorem phase_run_untilExit (parse : Parser) (s : Server) (messages : List Message) :
    (s.run parse (Message.untilExit messages)).phase =
      Message.phaseAfterAll s.phase (Message.untilExit messages) := by
  induction messages generalizing s with
  | nil => rfl
  | cons m messages ih =>
    rw [Message.untilExit]
    by_cases hm : m.isExit = true
    · rw [if_pos hm, run, List.foldl_cons, List.foldl_nil, handle_of_isExit hm]
      simp [Message.phaseAfterAll, hm]
    · have hstep : (s.handle parse m).1.phase = m.phaseAfter s.phase := by rw [handle_fst]
      rw [if_neg hm, Message.phaseAfterAll_cons hm, ← hstep]
      exact ih (s.handle parse m).1

theorem serveEach_of_terminated (hs : s.phase = .terminated) (streams : List Bytes) :
    serveEach parse s streams explain = streams.map fun stream => ⟨.finished, s, [], stream⟩ := by
  induction streams with
  | nil => rfl
  | cons stream streams ih =>
    rw [serveEach, serve_of_terminated hs, ih, List.map_cons]

theorem serverAfter_map (streams : List Bytes) :
    serverAfter s (streams.map fun stream => ⟨.finished, s, [], stream⟩) = s := by
  induction streams with
  | nil => rfl
  | cons stream streams ih =>
    rw [List.map_cons, serverAfter_cons]
    exact ih

theorem serverAfter_append (streams later : List Bytes) :
    serverAfter s (serveEach parse s (streams ++ later) explain) =
      serverAfter (serverAfter s (serveEach parse s streams explain))
        (serveEach parse (serverAfter s (serveEach parse s streams explain)) later explain) := by
  induction streams generalizing s with
  | nil => rfl
  | cons stream streams ih =>
    rw [List.cons_append, serveEach, serveEach, serverAfter_cons, serverAfter_cons]
    exact ih

/-- Serving streams one after the other is handling the messages in them up to the one that ends the
    session. -/
theorem serveEach_eq_run (parse : Parser) (explain : Explanation) (hs : s.phase ≠ .terminated)
    (streams : List Bytes) :
    serverAfter s (serveEach parse s streams explain) = s.run parse (Message.handledIn streams) ∧
      ((serveEach parse s streams explain).map Served.output).flatten =
        Frame.writeAll ((s.replies parse (Message.handledIn streams)).map (·.encode explain)) := by
  induction streams generalizing s with
  | nil => exact ⟨rfl, rfl⟩
  | cons stream streams ih =>
    obtain ⟨hserver, hout⟩ := serve_eq_run parse explain hs stream
    have hphase := phase_run_untilExit parse s (Message.inStream stream)
    rw [serveEach, serverAfter_cons, List.map_cons, List.flatten_cons, Message.handledIn,
      List.flatMap_cons, Message.untilExit_append]
    by_cases hexit : (Message.inStream stream).any Message.isExit = true
    · -- the session ends in this stream, and the later calls do nothing
      have hend : (serve parse s stream explain).server.phase = .terminated := by
        rw [hserver, hphase, Message.phaseAfterAll, Message.any_isExit_untilExit, if_pos hexit]
      rw [if_pos hexit, serveEach_of_terminated hend, serverAfter_map]
      refine ⟨hserver, ?_⟩
      rw [hout]
      simp
    · have hall := Message.untilExit_of_not_any hexit
      rw [hall] at hserver hout hphase
      have hgoes : (serve parse s stream explain).server.phase ≠ .terminated := by
        rw [hserver, hphase, Message.phaseAfterAll, if_neg hexit]
        split
        · simp
        · exact hs
      obtain ⟨hserver', hout'⟩ := ih hgoes
      rw [if_neg hexit, run_append, replies_append, List.map_append, Frame.writeAll_append,
        ← hserver, ← hout]
      refine ⟨hserver', ?_⟩
      rw [hout', Message.handledIn]

/-! ## Phases over all calls -/

theorem rank_phase_run_le (parse : Parser) (config : Config) {messages before behind : List Message}
    (h : Message.untilExit messages = before ++ behind) :
    ((start config).run parse before).phase.rank ≤
      ((start config).run parse (Message.untilExit messages)).phase.rank := by
  have hbefore := phase_run_untilExit parse (start config) before
  rw [Message.untilExit_of_append h] at hbefore
  rw [hbefore, phase_run_untilExit, h]
  exact Message.rank_phaseAfterAll_le before behind

/-- A new session is served any streams, one after the other. It is then as the messages handled on the
    way leave a new session. It has ended exactly if one of them was to end it; otherwise it shuts down
    exactly if one of them was a request to do so. From message to message and from call to call the
    phase never goes back, and once the session has ended, every call ends well, reads nothing, sends
    nothing and leaves the session as it is. -/
theorem phase_follows_messages (parse : Parser) (explain : Explanation) (config : Config)
    (streams : List Bytes) :
    let calls := serveEach parse (start config) streams explain
    let s := serverAfter (start config) calls
    let handled := Message.handledIn streams
    s = (start config).run parse handled ∧
    (calls.map Served.output).flatten =
      Frame.writeAll (((start config).replies parse handled).map (·.encode explain)) ∧
    (s.phase = .terminated ↔ ∃ m ∈ handled, m.isExit = true) ∧
    (s.phase = .shuttingDown ↔
      (¬ ∃ m ∈ handled, m.isExit = true) ∧ ∃ m ∈ handled, m.isShutdown = true) ∧
    (s.phase = .running ↔
      (¬ ∃ m ∈ handled, m.isExit = true) ∧ ¬ ∃ m ∈ handled, m.isShutdown = true) ∧
    (∀ before behind : List Message, handled = before ++ behind →
      ((start config).run parse before).phase.rank ≤ s.phase.rank) ∧
    (∀ later : List Bytes,
      s.phase.rank ≤ (serverAfter s (serveEach parse s later explain)).phase.rank) ∧
    (s.phase = .terminated → ∀ later : List Bytes,
      serveEach parse s later explain = later.map fun stream => ⟨.finished, s, [], stream⟩) := by
  intro calls s handled
  have hstart : (start config).phase ≠ .terminated := by simp [start]
  obtain ⟨hserver, hout⟩ := serveEach_eq_run parse explain hstart streams
  have hphase : s.phase = Message.phaseAfterAll .running handled := by
    have := phase_run_untilExit parse (start config) (streams.flatMap Message.inStream)
    rw [← Message.handledIn, ← hserver] at this
    exact this
  obtain ⟨hended, hshutting, hrunning⟩ := Message.phaseAfterAll_eq_iff handled
  rw [← hphase] at hended hshutting hrunning
  refine ⟨hserver, hout, hended, hshutting, hrunning, ?_, ?_, fun hend => serveEach_of_terminated hend⟩
  · intro before behind hsplit
    have hle := rank_phase_run_le parse config hsplit
    rwa [← Message.handledIn, ← hserver] at hle
  · intro later
    obtain ⟨behind, hsplit⟩ := Message.exists_handledIn_append streams later
    have hle := rank_phase_run_le parse config hsplit
    rwa [← Message.handledIn, ← hserver, ← (serveEach_eq_run parse explain hstart (streams ++ later)).1,
      serverAfter_append] at hle

end Server

end TwelveD
