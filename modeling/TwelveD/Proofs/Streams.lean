import TwelveD.Proofs.Sessions

/-!
# Streams in pieces

Between two packets a stream can be cut, and the pieces can be served one after the other
(`Server.serve_packets_append`). All that is said here of whole streams follows from that: it makes no
difference in how many calls a session is served, noise between packets has no effect, and a session
that comes to its end in the middle of a stream has done all that was due until then and nothing more.
-/

namespace TwelveD

namespace Server

open TwelveD.Frame (Line Packet)

variable {parse : Parser} {explain : Explanation} {s : Server}

/-! ## Packets -/

/-- The session after a packet, and what is sent for it. The body of a packet that is not intact is
    not looked at. -/
def receivePacket (s : Server) (parse : Parser) (p : Packet) (explain : Explanation) :
    Server × Bytes :=
  if p.Intact then s.receive parse p.body explain else (s, [])

theorem serve_packet (hs : s.phase ≠ .terminated) (p : Packet) (rest : Bytes) :
    serve parse s (p.bytes ++ rest) explain =
      (serve parse (s.receivePacket parse p explain).1 rest explain).after
        (s.receivePacket parse p explain).2 := by
  rw [serve_of_read hs (p.read_bytes rest), receivePacket]
  by_cases h : p.Intact
  · rw [Packet.outcome_of_intact h, if_pos h]
    rfl
  · obtain ⟨line, hline⟩ := Packet.outcome_of_not_intact h
    rw [hline, if_neg h]
    rfl

theorem serve_packet_alone (hs : s.phase ≠ .terminated) (p : Packet) :
    serve parse s p.bytes explain =
      ⟨.finished, (s.receivePacket parse p explain).1, (s.receivePacket parse p explain).2, []⟩ := by
  rw [← List.append_nil p.bytes, serve_packet hs, serve_nil, Served.after, List.append_nil]

/-! ## Calls in a row -/

/-- What two calls in a row come to together. The second one says how they end. -/
def Served.followedBy (a b : Served) : Served :=
  ⟨b.ending, b.server, a.output ++ b.output, a.rest ++ b.rest⟩

/-- A packet can be served in a call of its own. In a session that has ended, both calls leave what
    they are given. -/
theorem serve_packet_append (s : Server) (p : Packet) (rest : Bytes) :
    serve parse s (p.bytes ++ rest) explain =
      (serve parse s p.bytes explain).followedBy
        (serve parse (serve parse s p.bytes explain).server rest explain) := by
  by_cases hs : s.phase = .terminated
  · simp only [serve_of_terminated hs]
    rfl
  · rw [serve_packet hs, serve_packet_alone hs]
    rfl

theorem serve_write_append (s : Server) {body : Bytes} (hbody : body.length < Frame.bufferLimit)
    (rest : Bytes) :
    serve parse s (Frame.write body ++ rest) explain =
      (serve parse s (Frame.write body) explain).followedBy
        (serve parse (serve parse s (Frame.write body) explain).server rest explain) := by
  rw [← Packet.bytes_ofBody hbody]
  exact serve_packet_append s (.ofBody body hbody) rest

/-- A stream can be cut behind any of its packets. -/
theorem serve_packets_append (s : Server) (packets : List Packet) (rest : Bytes) :
    serve parse s (packets.flatMap Packet.bytes ++ rest) explain =
      (serve parse s (packets.flatMap Packet.bytes) explain).followedBy
        (serve parse (serve parse s (packets.flatMap Packet.bytes) explain).server rest explain) := by
  induction packets generalizing s with
  | nil =>
    rw [List.flatMap_nil, serve_nil]
    rfl
  | cons p packets ih =>
    rw [List.flatMap_cons, List.append_assoc, serve_packet_append s p, ih, serve_packet_append s p]
    simp only [Served.followedBy, List.append_assoc]

/-- The calls in which a session is served streams one after the other. -/
def serveEach (parse : Parser) (s : Server) (streams : List Bytes)
    (explain : Explanation := .silent) : List Served :=
  match streams with
  | [] => []
  | stream :: streams =>
    let first := serve parse s stream explain
    first :: serveEach parse first.server streams explain

/-- The session after calls. -/
def serverAfter (s : Server) (calls : List Served) : Server :=
  (calls.getLast?.map Served.server).getD s

theorem serverAfter_cons (call : Served) (calls : List Served) :
    serverAfter s (call :: calls) = serverAfter call.server calls := by
  unfold serverAfter
  rw [List.getLast?_cons]
  cases calls.getLast? <;> rfl

theorem ending_serve_write (s : Server) {body : Bytes} (hbody : body.length < Frame.bufferLimit) :
    (serve parse s (Frame.write body) explain).ending = .finished := by
  by_cases hs : s.phase = .terminated
  · rw [serve_of_terminated hs]
  · rw [← Packet.bytes_ofBody hbody, serve_packet_alone hs]

/-- Whatever the state of a session, frames that are served in a single call and frames that are
    served in a call each come to the same: every call ends well, the session is the same afterwards,
    the same bytes are sent, and the same bytes are left unread. -/
theorem serve_writeAll_eq_serveEach (parse : Parser) (explain : Explanation) (s : Server)
    (bodies : List Bytes) (hbodies : ∀ body ∈ bodies, body.length < Frame.bufferLimit) :
    (serve parse s (Frame.writeAll bodies) explain).ending = .finished ∧
    (∀ call ∈ serveEach parse s (bodies.map Frame.write) explain, call.ending = .finished) ∧
    (serve parse s (Frame.writeAll bodies) explain).server =
      serverAfter s (serveEach parse s (bodies.map Frame.write) explain) ∧
    (serve parse s (Frame.writeAll bodies) explain).output =
      ((serveEach parse s (bodies.map Frame.write) explain).map Served.output).flatten ∧
    (serve parse s (Frame.writeAll bodies) explain).rest =
      ((serveEach parse s (bodies.map Frame.write) explain).map Served.rest).flatten := by
  induction bodies generalizing s with
  | nil =>
    rw [Frame.writeAll_nil, serve_nil]
    exact ⟨rfl, by simp [serveEach], rfl, rfl, rfl⟩
  | cons body bodies ih =>
    obtain ⟨hbody, hrest⟩ := List.forall_mem_cons.mp hbodies
    obtain ⟨hending, hcalls, hserver, houtput, hunread⟩ :=
      ih (serve parse s (Frame.write body) explain).server hrest
    rw [Frame.writeAll_cons, serve_write_append s hbody, List.map_cons, serveEach, serverAfter_cons]
    refine ⟨hending, ?_, hserver, ?_, ?_⟩
    · intro call hcall
      rcases List.mem_cons.mp hcall with rfl | hcall
      · exact ending_serve_write s hbody
      · exact hcalls call hcall
    · rw [Served.followedBy, houtput, List.map_cons, List.flatten_cons]
    · rw [Served.followedBy, hunread, List.map_cons, List.flatten_cons]

/-- A request. -/
def shutdownBody : Bytes := Bytes.ofString "\x7b\"id\":1,\"method\":\"shutdown\"\x7d"

/-- The end of the session, sent as a request. -/
def exitBody : Bytes := Bytes.ofString "\x7b\"id\":2,\"method\":\"exit\"\x7d"

/-- Bytes that are no message, a request, the end of the session, and a request that comes too
    late. -/
def endedSession : List Bytes := [Bytes.ofString "?", shutdownBody, exitBody, shutdownBody]

theorem serve_writeAll_eq_serveEach_endedSession :
    (∀ body ∈ endedSession, body.length < Frame.bufferLimit) ∧
      (serve (fun _ => none) (start .default) (Frame.writeAll endedSession)).ending = .finished ∧
      (serve (fun _ => none) (start .default) (Frame.writeAll endedSession)).server =
        serverAfter (start .default)
          (serveEach (fun _ => none) (start .default) (endedSession.map Frame.write)) ∧
      (serve (fun _ => none) (start .default) (Frame.writeAll endedSession)).output =
        ((serveEach (fun _ => none) (start .default) (endedSession.map Frame.write)).map
          Served.output).flatten := by
  have hbodies : ∀ body ∈ endedSession, body.length < Frame.bufferLimit := by decide
  obtain ⟨hending, -, hserver, houtput, -⟩ :=
    serve_writeAll_eq_serveEach (fun _ => none) .silent (start .default) endedSession hbodies
  exact ⟨hbodies, hending, hserver, houtput⟩

/-! ## Noise -/

/-- What may stand between packets without meaning anything. -/
inductive Noise where
  /-- A blank line. -/
  | blank (line : Line) (h : line.text = [])
  /-- A packet whose body is no message. -/
  | undecodable (p : Packet) (h : p.Intact) (hbody : Message.ofBytes? p.body = none)
  /-- A packet with a line that is no header. Its body may be anything, a message too. -/
  | broken (p : Packet) (h : ∃ l ∈ p.headers, ':' ∉ l.text)

/-- Noise as it stands in a stream. -/
def Noise.bytes : Noise → Bytes
  | .blank line _ => line.written
  | .undecodable p _ _ => p.bytes
  | .broken p _ => p.bytes

theorem serve_noise (hs : s.phase ≠ .terminated) (n : Noise) (rest : Bytes) :
    serve parse s (n.bytes ++ rest) explain = serve parse s rest explain := by
  cases n with
  | blank line h =>
    have hread : Frame.read (line.written ++ rest) = Frame.read rest := Frame.read_blank h rest
    exact (serve_of_read hs hread).trans (serve_of_read hs rfl).symm
  | undecodable p h hbody =>
    have hreceive : s.receivePacket parse p explain = (s, []) := by
      rw [receivePacket, if_pos h, receive, hbody]
    rw [Noise.bytes, serve_packet hs, hreceive]
    rfl
  | broken p h =>
    obtain ⟨l, hl, hcolon⟩ := h
    have hbroken : ¬ p.Intact := fun hintact => hcolon (hintact l hl)
    rw [Noise.bytes, serve_packet hs, receivePacket, if_neg hbroken]
    rfl

theorem serve_noises (hs : s.phase ≠ .terminated) (noise : List Noise) (rest : Bytes) :
    serve parse s (noise.flatMap Noise.bytes ++ rest) explain = serve parse s rest explain := by
  induction noise with
  | nil => rfl
  | cons n noise ih => rw [List.flatMap_cons, List.append_assoc, serve_noise hs, ih]

/-- Whatever the state of a session, noise behind packets and before any bytes at all changes neither
    what is sent, nor how serving ends, nor the session afterwards. -/
theorem noise_is_invisible (parse : Parser) (explain : Explanation) (s : Server)
    (packets : List Packet) (noise : List Noise) (stream : Bytes) :
    let noisy := serve parse s
      (packets.flatMap Packet.bytes ++ (noise.flatMap Noise.bytes ++ stream)) explain
    let quiet := serve parse s (packets.flatMap Packet.bytes ++ stream) explain
    noisy.output = quiet.output ∧ noisy.ending = quiet.ending ∧
      noisy.server.phase = quiet.server.phase ∧ noisy.server.store = quiet.server.store := by
  intro noisy quiet
  simp only [noisy, quiet, serve_packets_append s packets]
  generalize serve parse s (packets.flatMap Packet.bytes) explain = before
  -- the packets may have ended the session; then neither the noise nor the stream is read
  by_cases hend : before.server.phase = .terminated
  · simp only [serve_of_terminated hend]
    exact ⟨rfl, rfl, rfl, rfl⟩
  · rw [serve_noises hend]
    exact ⟨rfl, rfl, rfl, rfl⟩

/-- A packet with a line that is no header, two lengths of which the second counts, and a message
    that would end the session for its body. -/
def strayPacket : Packet where
  blanks := []
  headers := [⟨Bytes.ofString "Bogus\r", by decide⟩, ⟨Bytes.ofString "content-length: 9\r", by decide⟩,
    ⟨Bytes.ofString "Content-Length: +24\r", by decide⟩]
  separator := ⟨Bytes.ofString " \t", by decide⟩
  body := exitBody
  text_blanks := Line.text_of_mem_nil
  headers_ne_nil := List.cons_ne_nil _ _
  text_ne_nil := by decide
  text_separator := by decide
  announced := by decide
  fits := by decide

theorem ofBytes?_questionMark : Message.ofBytes? (Bytes.ofString "?") = none := by
  with_unfolding_all rfl

/-- Noise of all kinds. -/
def threeNoises : List Noise :=
  [.blank ⟨Bytes.ofString " \r", by decide⟩ (by decide),
    .undecodable (.ofBody (Bytes.ofString "?") (by decide)) (Packet.intact_ofBody _)
      ofBytes?_questionMark,
    .broken strayPacket (by decide)]

theorem noise_is_invisible_threeNoises :
    threeNoises.flatMap Noise.bytes =
      Bytes.ofString " \r\nContent-Length: 1\r\n\r\n?" ++
        Bytes.ofString "Bogus\r\ncontent-length: 9\r\nContent-Length: +24\r\n \t\n" ++ exitBody ∧
    ∀ stream : Bytes,
      (serve (fun _ => none) (start .default) (threeNoises.flatMap Noise.bytes ++ stream)).output =
        (serve (fun _ => none) (start .default) stream).output ∧
      (serve (fun _ => none) (start .default)
          (threeNoises.flatMap Noise.bytes ++ stream)).server.phase =
        (serve (fun _ => none) (start .default) stream).server.phase := by
  refine ⟨by decide, fun stream => ?_⟩
  obtain ⟨houtput, -, hphase, -⟩ :=
    noise_is_invisible (fun _ => none) .silent (start .default) [] threeNoises stream
  exact ⟨houtput, hphase⟩

/-! ## Ends -/

theorem handle_of_isExit {m : Message} (h : m.isExit = true) :
    s.handle parse m = ({ s with phase := .terminated }, none) := by
  have hexit : Method.ofName "exit" = .exit :=
    (Method.ofName_eq_iff "exit" (p := ("exit", .exit)) (by decide)).mpr rfl
  cases m with
  | request id method params =>
    obtain rfl : method = "exit" := by simpa [Message.isExit] using h
    rw [handle, hexit]
    rfl
  | notification method params =>
    obtain rfl : method = "exit" := by simpa [Message.isExit] using h
    rw [handle, hexit]
    rfl
  | response id => cases h

theorem phase_receive_ne_terminated (hs : s.phase ≠ .terminated) {body : Bytes}
    (h : ∀ m ∈ Message.ofBytes? body, m.isExit = false) :
    (s.receive parse body explain).1.phase ≠ .terminated := by
  unfold receive
  cases hm : Message.ofBytes? body with
  | none => exact hs
  | some m =>
    have hexit : ¬ m.isExit = true := by simp [h m hm]
    simp only [handle_fst]
    rwa [Ne, Message.phaseAfter_eq_terminated_iff hs]

/-- Packets without a message that ends the session are read to the end, and the session goes on. -/
theorem serve_packets_of_no_exit (parse : Parser) (explain : Explanation)
    (hs : s.phase ≠ .terminated) {packets : List Packet}
    (h : ∀ p ∈ packets, ∀ m ∈ Message.ofBytes? p.body, m.isExit = false) :
    (serve parse s (packets.flatMap Packet.bytes) explain).server.phase ≠ .terminated ∧
      (serve parse s (packets.flatMap Packet.bytes) explain).rest = [] := by
  induction packets generalizing s with
  | nil =>
    rw [List.flatMap_nil, serve_nil]
    exact ⟨hs, rfl⟩
  | cons p packets ih =>
    obtain ⟨hp, hpackets⟩ := List.forall_mem_cons.mp h
    have hphase : (s.receivePacket parse p explain).1.phase ≠ .terminated := by
      unfold receivePacket
      split
      · exact phase_receive_ne_terminated hs hp
      · exact hs
    rw [List.flatMap_cons, serve_packet hs]
    exact ih hphase hpackets

/-- What follows packets without a message that ends the session finds the session as they have left
    it, and adds to what was sent for them. -/
theorem serve_after_packets (hs : s.phase ≠ .terminated) {packets : List Packet}
    (h : ∀ p ∈ packets, ∀ m ∈ Message.ofBytes? p.body, m.isExit = false) (stream : Bytes) :
    serve parse s (packets.flatMap Packet.bytes ++ stream) explain =
      (serve parse (serve parse s (packets.flatMap Packet.bytes) explain).server stream explain).after
        (serve parse s (packets.flatMap Packet.bytes) explain).output := by
  obtain ⟨-, hrest⟩ := serve_packets_of_no_exit parse explain hs h
  rw [serve_packets_append, Served.followedBy, hrest]
  rfl

/-- A session that has not ended is served packets, none of which ends it. If the reader fails for good
    on what follows, serving ends with its error; if a message follows that ends the session, serving
    ends well, and whatever stands behind that message is left unread. In both cases the documents are
    those after the packets, and what was sent for the packets is all that is sent. -/
theorem session_cut_cleanly (parse : Parser) (explain : Explanation) (s : Server)
    (hs : s.phase ≠ .terminated) (packets : List Packet)
    (hpackets : ∀ p ∈ packets, ∀ m ∈ Message.ofBytes? p.body, m.isExit = false) :
    (∀ (stream rest : Bytes) (e : FramingError),
      Frame.read stream = (.failed e, rest) → e.isRecoverable = false →
        serve parse s (packets.flatMap Packet.bytes ++ stream) explain =
          ⟨.failed e, (serve parse s (packets.flatMap Packet.bytes) explain).server,
            (serve parse s (packets.flatMap Packet.bytes) explain).output, rest⟩) ∧
    (∀ (p : Packet) (m : Message), p.Intact → Message.ofBytes? p.body = some m → m.isExit = true →
      ∀ rest : Bytes,
        serve parse s (packets.flatMap Packet.bytes ++ (p.bytes ++ rest)) explain =
          ⟨.finished,
            { (serve parse s (packets.flatMap Packet.bytes) explain).server with phase := .terminated },
            (serve parse s (packets.flatMap Packet.bytes) explain).output, rest⟩) := by
  obtain ⟨hphase, -⟩ := serve_packets_of_no_exit parse explain hs hpackets
  constructor
  · intro stream rest e hread he
    rw [serve_after_packets hs hpackets, serve_of_read hphase hread, resume, he, Served.after]
    simp
  · intro p m hintact hm hexit rest
    rw [serve_after_packets hs hpackets, serve_packet hphase, receivePacket, if_pos hintact, receive,
      hm]
    simp only [handle_of_isExit hexit, serve_of_terminated, Served.after, Option.map_none,
      Option.getD_none, List.append_nil]

theorem ofBytes?_shutdownBody :
    Message.ofBytes? shutdownBody = some (.request (.number 1) "shutdown" .null) := by
  with_unfolding_all rfl

theorem ofBytes?_exitBody :
    Message.ofBytes? exitBody = some (.request (.number 2) "exit" .null) := by
  with_unfolding_all rfl

/-- A header block with a length that is none. -/
def unreadableLength : Frame.HeaderBlock where
  blanks := []
  headers := [⟨Bytes.ofString "Content-Length: twelve\r", by decide⟩]
  separator := .carriageReturn
  text_blanks := Line.text_of_mem_nil
  headers_ne_nil := List.cons_ne_nil _ _
  text_ne_nil := by decide
  text_separator := Line.text_carriageReturn

theorem read_unreadableLength : Frame.read (unreadableLength.bytes ++ [0x3F]) =
    (.failed (.invalidContentLength "twelve"), [0x3F]) := by
  rw [Frame.read, Frame.readIn, unreadableLength.readBlock_bytes]
  decide

theorem session_cut_cleanly_afterShutdown :
    let front := Frame.write shutdownBody
    let before := serve (fun _ => none) (start .default) front
    serve (fun _ => none) (start .default) (front ++
        Bytes.ofString "Content-Length: twelve\r\n\r\n?") =
      ⟨.failed (.invalidContentLength "twelve"), before.server, before.output, [0x3F]⟩ ∧
    serve (fun _ => none) (start .default) (front ++ (Frame.write exitBody ++ [0x3F])) =
      ⟨.finished, { before.server with phase := .terminated }, before.output, [0x3F]⟩ := by
  intro front before
  have hshutdown : shutdownBody.length < Frame.bufferLimit := by decide
  have hexit : exitBody.length < Frame.bufferLimit := by decide
  have hpackets : ∀ p ∈ [Packet.ofBody shutdownBody hshutdown],
      ∀ m ∈ Message.ofBytes? p.body, m.isExit = false := by
    intro p hp m hm
    obtain rfl := List.mem_singleton.mp hp
    obtain rfl := Option.some.inj (ofBytes?_shutdownBody.symm.trans hm)
    decide
  have hfront : [Packet.ofBody shutdownBody hshutdown].flatMap Packet.bytes = front := by
    rw [List.flatMap_singleton, Packet.bytes_ofBody]
  obtain ⟨hfailed, hended⟩ :=
    session_cut_cleanly (fun _ => none) .silent (start .default) (by decide) _ hpackets
  rw [hfront] at hfailed hended
  refine ⟨hfailed _ _ _ read_unreadableLength rfl, ?_⟩
  rw [← Packet.bytes_ofBody hexit]
  exact hended _ _ (Packet.intact_ofBody hexit) ofBytes?_exitBody (by decide) [0x3F]

end Server

end TwelveD
