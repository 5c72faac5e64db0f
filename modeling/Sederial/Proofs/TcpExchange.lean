import Sederial.Proofs.Framing

/-!
# `Sederial.Proofs.TcpExchange`: what one exchange over TCP does

`sendOverTcp_run` and `tcpExchange_run` describe every run of an exchange over TCP: which
connection it uses, what it sends and accepts, in which order, and what it leaves in the cache.
`ExchangeSteps` lists the orders in which an exchange can connect, reuse, send and accept.

A stream with half a frame in flight would hand the answer of one request to the next, so only a
stream on which every exchange was complete may be kept. `Live` says this of a stream: it was
opened by a connection to its server, and its traffic since then is complete exchanges, each a
request frame written whole, a response frame read whole, and a response that validates.
`Synchronised` says it of the cached connection. `tcpExchange` takes the cached connection out of
the state before it does anything that can fail, and puts a stream back only behind a complete
exchange, so it keeps `Synchronised`.
-/

set_option autoImplicit false

namespace Sederial

open Sederial.Lib
open Sederial.Dns (Packet Query Response SentQuery)

/-! ### Traffic on TCP streams -/

namespace Event

/-- Events that open a TCP stream or move bytes on one. -/
def isTraffic : Event → Bool
  | .tcpConnect _ | .tcpSend _ _ | .tcpWrite _ _ | .tcpRead _ _ => true
  | _ => false

/-- The TCP traffic among some events. -/
def traffic (events : List Event) : List Event := events.filter isTraffic

/-- The traffic of two stretches. -/
@[simp] theorem traffic_append (events events' : List Event) :
    traffic (events ++ events') = traffic events ++ traffic events' :=
  List.filter_append ..

/-- Everything but looks at the clock and the entropy source and the pieces of frames: what is
connected, reused, sent and accepted, and the start and end of a visit. -/
def isStep : Event → Bool
  | .now _ | .check _ | .entropy _ | .tcpWrite _ _ | .tcpRead _ _ => false
  | _ => true

/-- The steps among some events. -/
def steps (events : List Event) : List Event := events.filter isStep

/-- The steps of two stretches. -/
@[simp] theorem steps_append (events events' : List Event) :
    steps (events ++ events') = steps events ++ steps events' :=
  List.filter_append ..

end Event

/-- A deadline check, or bytes written to the peer. -/
def Event.WritesTo (peer : SocketAddr) (e : Event) : Prop :=
  (∃ reading, e = .check reading) ∨ ∃ piece, e = .tcpWrite peer piece

/-- A deadline check, or bytes read from the peer. -/
def Event.ReadsFrom (peer : SocketAddr) (e : Event) : Prop :=
  (∃ reading, e = .check reading) ∨ ∃ piece, e = .tcpRead peer piece

/-- The peer of the stream stays the same when it is read. -/
theorem TcpStream.peer_of_read {stream stream' : TcpStream} {n : Nat}
    {r : Except ErrorKind (List UInt8)} (h : stream.read n = (r, stream')) :
    stream'.peer = stream.peer := by
  have hpeer := stream.peer_read n
  rwa [h] at hpeer

/-- The peer of the stream stays the same when it is written. -/
theorem TcpStream.peer_of_write {stream stream' : TcpStream} {bytes : List UInt8}
    {r : Except ErrorKind Nat} (h : stream.write bytes = (r, stream')) :
    stream'.peer = stream.peer := by
  have hpeer := stream.peer_write bytes
  rwa [h] at hpeer

/-- What a run of the write loop does. -/
theorem WritesRest.events {deadline : Deadline} {clock clock' : List Reading}
    {stream final : TcpStream} {rest : List UInt8} {r : Except IoError Unit} {new : List Event}
    (h : WritesRest deadline clock stream rest r new clock' final) :
    final.peer = stream.peer ∧ ∀ e ∈ new, e.WritesTo stream.peer := by
  have hcheck : ∀ {reading peer}, ∀ e ∈ [Event.check reading], e.WritesTo peer := by
    intro reading peer e he
    exact .inl ⟨reading, List.mem_singleton.mp he⟩
  induction h with
  | late late => exact ⟨rfl, hcheck⟩
  | done intime => exact ⟨rfl, hcheck⟩
  | refused some intime refused => exact ⟨rfl, hcheck⟩
  | zero some intime write => exact ⟨TcpStream.peer_of_write write, hcheck⟩
  | bytes some intime write positive more ih =>
    have hpeer := TcpStream.peer_of_write write
    rw [hpeer] at ih
    refine ⟨ih.1, List.forall_mem_cons.mpr ⟨.inl ⟨_, rfl⟩, ?_⟩⟩
    exact List.forall_mem_cons.mpr ⟨.inr ⟨_, rfl⟩, ih.2⟩
  | again some intime write transient more ih =>
    have hpeer := TcpStream.peer_of_write write
    rw [hpeer] at ih
    exact ⟨ih.1, List.forall_mem_cons.mpr ⟨.inl ⟨_, rfl⟩, ih.2⟩⟩
  | failed some intime write permanent => exact ⟨TcpStream.peer_of_write write, hcheck⟩

/-- What a run of the read loop does. -/
theorem ReadsField.events {length : Nat} {deadline : Deadline} {clock clock' : List Reading}
    {stream final : TcpStream} {got : List UInt8} {r : Except IoError (Option (List UInt8))}
    {new : List Event} (h : ReadsField length deadline clock stream got r new clock' final) :
    final.peer = stream.peer ∧ ∀ e ∈ new, e.ReadsFrom stream.peer := by
  have hcheck : ∀ {reading peer}, ∀ e ∈ [Event.check reading], e.ReadsFrom peer := by
    intro reading peer e he
    exact .inl ⟨reading, List.mem_singleton.mp he⟩
  induction h with
  | late late => exact ⟨rfl, hcheck⟩
  | full full intime => exact ⟨rfl, hcheck⟩
  | refused part intime refused => exact ⟨rfl, hcheck⟩
  | eof part intime read => exact ⟨TcpStream.peer_of_read read, hcheck⟩
  | cut part some intime read => exact ⟨TcpStream.peer_of_read read, hcheck⟩
  | bytes part intime read some rest ih =>
    have hpeer := TcpStream.peer_of_read read
    rw [hpeer] at ih
    refine ⟨ih.1, List.forall_mem_cons.mpr ⟨.inl ⟨_, rfl⟩, ?_⟩⟩
    exact List.forall_mem_cons.mpr ⟨.inr ⟨_, rfl⟩, ih.2⟩
  | again part intime read transient rest ih =>
    have hpeer := TcpStream.peer_of_read read
    rw [hpeer] at ih
    exact ⟨ih.1, List.forall_mem_cons.mpr ⟨.inl ⟨_, rfl⟩, ih.2⟩⟩
  | failed part intime read permanent => exact ⟨TcpStream.peer_of_read read, hcheck⟩

/-- The reading of a frame logs nothing but reads from the peer of the stream. -/
theorem ReadsFrame.events {deadline : Deadline} {clock clock' : List Reading}
    {stream final : TcpStream} {r : Except IoError (Option (List UInt8))} {new : List Event}
    (h : ReadsFrame deadline clock stream r new clock' final) :
    final.peer = stream.peer ∧ ∀ e ∈ new, e.ReadsFrom stream.peer := by
  have hboth : ∀ {length length' r r' got got'} {clock clock' clock'' : List Reading}
      {new new' : List Event} {stream stream' final : TcpStream},
      ReadsField length deadline clock stream got r new clock' stream' →
      ReadsField length' deadline clock' stream' got' r' new' clock'' final →
      final.peer = stream.peer ∧ ∀ e ∈ new ++ new', e.ReadsFrom stream.peer := by
    intro length length' r r' got got' clock clock' clock'' new new' stream stream' final header
      body
    have hbody := body.events
    rw [header.events.1] at hbody
    exact ⟨hbody.1, List.forall_mem_append.mpr ⟨header.events.2, hbody.2⟩⟩
  cases h with
  | prefixFailed header => exact header.events
  | eof header => exact header.events
  | short header short => exact header.events
  | bodyFailed header long body => exact hboth header body
  | missing header long body => exact hboth header body
  | message header long body => exact hboth header body

namespace Event

variable {peer : SocketAddr} {events : List Event}

/-- A write is no step. -/
theorem steps_of_writesTo (h : ∀ e ∈ events, e.WritesTo peer) : steps events = [] := by
  refine List.filter_eq_nil_iff.mpr fun e he => ?_
  rcases h e he with ⟨reading, rfl⟩ | ⟨piece, rfl⟩
  · exact Bool.false_ne_true
  · exact Bool.false_ne_true

/-- A read is no step. -/
theorem steps_of_readsFrom (h : ∀ e ∈ events, e.ReadsFrom peer) : steps events = [] := by
  refine List.filter_eq_nil_iff.mpr fun e he => ?_
  rcases h e he with ⟨reading, rfl⟩ | ⟨piece, rfl⟩
  · exact Bool.false_ne_true
  · exact Bool.false_ne_true

/-- A write receives nothing. -/
theorem received_of_writesTo (h : ∀ e ∈ events, e.WritesTo peer) : received events = [] := by
  refine List.flatMap_eq_nil_iff.mpr fun e he => ?_
  rcases h e he with ⟨reading, rfl⟩ | ⟨piece, rfl⟩
  · rfl
  · rfl

end Event

/-! ### Synchronised streams -/

/-- A complete exchange on a stream: a request frame written whole, then one response frame
read whole, and a response that validates against the request. It leaves the stream as `final`,
and `writes` and `reads` are what the two framing calls logged. -/
inductive CompleteExchange (sent : SentQuery) (stream : TcpStream) :
    Response → TcpStream → List Event → Prop
  | intro {deadline : Deadline} {clock clock₁ clock₂ : List Reading} {middle final : TcpStream}
      {writes reads : List Event} {bytes : List UInt8} {packet : Packet} {response : Response}
      (write : WritesRest deadline clock stream (frame sent.wire) (.ok ()) writes clock₁ middle)
      (written : Event.written writes = frame sent.wire)
      (writing : ∀ e ∈ writes, e.WritesTo stream.peer)
      (read : ReadsFrame deadline clock₁ middle (.ok (some bytes)) reads clock₂ final)
      (received : Event.received reads = frame bytes)
      (reading : ∀ e ∈ reads, e.ReadsFrom stream.peer)
      (parse : Packet.parse bytes = .ok packet)
      (validate : sent.validateResponse packet = some response) :
      CompleteExchange sent stream response final
        (.tcpSend stream.peer sent.wire :: (Event.traffic writes ++ Event.traffic reads))

/-- What a stream has become since it was opened as `origin`, when the traffic on it is complete
exchanges, one after the other. -/
inductive InSync (origin : TcpStream) : TcpStream → List Event → Prop
  | opened : InSync origin origin []
  | nodelay {stream : TcpStream} {events : List Event} (before : InSync origin stream events) :
      InSync origin stream.setNodelay.2 events
  | exchange {stream final : TcpStream} {events exchange : List Event} {sent : SentQuery}
      {response : Response} (before : InSync origin stream events)
      (last : CompleteExchange sent stream response final exchange) :
      InSync origin final (events ++ exchange)

/-- The stream was opened by a connection to the server, nothing was connected since, and the
traffic on it is complete exchanges. -/
structure Live (address : UpstreamAddress) (stream : TcpStream) (log : List Event) : Prop where
  peer : stream.peer = address.socket
  traffic : ∃ env origin exchanges,
    ((Env.connect address.socket).exec env).1 = .ok origin ∧ InSync origin stream exchanges ∧
      Event.traffic log = Event.traffic env.log ++ .tcpConnect address.socket :: exchanges

/-- A live stream stays live as long as there is no traffic. -/
theorem Live.quiet {address : UpstreamAddress} {stream : TcpStream} {log new : List Event}
    (h : Live address stream log) (hnew : Event.traffic new = []) :
    Live address stream (log ++ new) := by
  obtain ⟨hpeer, env, origin, exchanges, horigin, hsync, htraffic⟩ := h
  refine ⟨hpeer, env, origin, exchanges, horigin, hsync, ?_⟩
  rw [Event.traffic_append, hnew, List.append_nil, htraffic]

/-- `TCP_NODELAY` does not change whether a stream is live. -/
theorem Live.nodelay {address : UpstreamAddress} {stream : TcpStream} {log : List Event}
    (h : Live address stream log) : Live address stream.setNodelay.2 log := by
  obtain ⟨hpeer, env, origin, exchanges, horigin, hsync, htraffic⟩ := h
  exact ⟨stream.peer_setNodelay.trans hpeer, env, origin, exchanges, horigin, hsync.nodelay,
    htraffic⟩

/-! ### One exchange on a stream -/

/-- Between a message sent to a peer and the acceptance of the response, one frame with the bytes
of the response was read. -/
def Arrives (wire : List UInt8) (response : Response) (events : List Event) : Prop :=
  Packet.parse response.wire = .ok response.packet ∧
    ∃ peer pre mid post, events = pre ++ (mid ++ .accept peer response :: post) ∧
      Event.steps mid = [.tcpSend peer wire] ∧ Event.received mid = frame response.wire

namespace Arrives

variable {wire : List UInt8} {response : Response} {events : List Event}

/-- More events may come before. -/
theorem prepend (h : Arrives wire response events) (more : List Event) :
    Arrives wire response (more ++ events) := by
  obtain ⟨hparsed, peer, pre, mid, post, rfl, hsteps, hreceived⟩ := h
  exact ⟨hparsed, peer, more ++ pre, mid, post, (List.append_assoc ..).symm, hsteps, hreceived⟩

/-- More events may come after. -/
theorem append (h : Arrives wire response events) (more : List Event) :
    Arrives wire response (events ++ more) := by
  obtain ⟨hparsed, peer, pre, mid, post, rfl, hsteps, hreceived⟩ := h
  refine ⟨hparsed, peer, pre, mid, post ++ more, ?_, hsteps, hreceived⟩
  rw [List.append_assoc, List.append_assoc, List.cons_append]

end Arrives

/-- The runs of `send_over_tcp`: what they log, and what they leave of the stream. -/
inductive Sends (sent : SentQuery) (stream : TcpStream) :
    Except ForwardError Response → TcpStream → List Event → Prop
  | failed {e : ForwardError} {final : TcpStream} {new : List Event}
      (steps : Event.steps new = [.tcpSend stream.peer sent.wire]) :
      Sends sent stream (.error e) final new
  | answered {response : Response} {final : TcpStream} {new : List Event}
      (steps : Event.steps new
        = [.tcpSend stream.peer sent.wire, .accept stream.peer response])
      (peer : final.peer = stream.peer) (arrives : Arrives sent.wire response new)
      (complete : CompleteExchange sent stream response final (Event.traffic new)) :
      Sends sent stream (.ok response) final new

/-- A call of `write_frame` logs nothing but checks and writes, and its success is a run of the
loop. -/
theorem writeFrame_log (wire : List UInt8) (deadline : Deadline) (s : Session) :
    ∃ new, ((writeFrame wire deadline).exec s).2.env.log = s.env.log ++ new ∧
      ((writeFrame wire deadline).exec s).2.env.udp = s.env.udp ∧
      (∀ e ∈ new, e.WritesTo s.stream.peer) ∧
      (((writeFrame wire deadline).exec s).1 = .ok () → ∃ clock,
        WritesRest deadline s.env.clock s.stream (frame wire) (.ok ()) new clock
          ((writeFrame wire deadline).exec s).2.stream ∧
        ((writeFrame wire deadline).exec s).2.env.clock = clock) := by
  by_cases hframed : Framed wire
  · obtain ⟨new, clock, hrun, henv⟩ := writeFrame_run deadline hframed s
    refine ⟨new, ?_, ?_, hrun.events.2, fun hok => ⟨clock, ?_, ?_⟩⟩
    · rw [henv]
      rfl
    · rw [henv]
      rfl
    · rwa [hok] at hrun
    · rw [henv]
      rfl
  · rw [writeFrame_exec_of_not deadline hframed]
    exact ⟨[], (List.append_nil _).symm, rfl, fun e he => (nomatch he), fun h => nomatch h⟩

/-- A deadline check between the frames and the parser. -/
theorem Session.checkDeadline_exec (deadline : Deadline) (s : Session) :
    (discard (Run.mapError ForwardError.ofIo (onEnv deadline.remaining)) :
        Run Session ForwardError PUnit).exec s
      = (((deadline.left s.env.clock.head?).mapError ForwardError.ofIo).map fun _ => ⟨⟩,
          { s with env := s.env.checked }) := by
  show ((Run.mapError ForwardError.ofIo (onEnv deadline.remaining)) >>= fun _ =>
    pure PUnit.unit).exec s = _
  rw [Run.exec_bind, Run.exec_mapError, onEnv_exec, deadline.remaining_exec]
  cases deadline.left s.env.clock.head? <;> rfl

/-- A deadline check takes one reading, however it ends. -/
theorem Session.checkDeadline_ensures (deadline : Deadline) (P : Session → Prop) :
    Run.Ensures P (discard (Run.mapError ForwardError.ofIo (onEnv deadline.remaining)) :
      Run Session ForwardError PUnit)
      fun _ s' => ∃ s, P s ∧ s' = { s with env := s.env.checked } := by
  intro s hs
  rw [Session.checkDeadline_exec]
  exact ⟨s, hs, rfl⟩

/-- Since the session `s` the events `new` were logged, and the request is the only step among
them. -/
structure Requested (sent : SentQuery) (s s' : Session) (new : List Event) : Prop where
  log : s'.env.log = s.env.log ++ new
  udp : s'.env.udp = s.env.udp
  steps : Event.steps new = [.tcpSend s.stream.peer sent.wire]

/-- What a run of `send_over_tcp` that started as `s` has done when it ends as `s'`. -/
def SendsFrom (sent : SentQuery) (s : Session) (r : Except ForwardError Response)
    (s' : Session) : Prop :=
  ∃ new, s'.env.log = s.env.log ++ new ∧ s'.env.udp = s.env.udp ∧
    Sends sent s.stream r s'.stream new

namespace Requested

variable {sent : SentQuery} {s s₁ s₂ : Session} {new more : List Event}

/-- Events that are no steps may come behind the request. -/
theorem append (h : Requested sent s s₁ new) (hlog : s₂.env.log = s₁.env.log ++ more)
    (hudp : s₂.env.udp = s₁.env.udp) (hquiet : Event.steps more = []) :
    Requested sent s s₂ (new ++ more) := by
  refine ⟨?_, hudp.trans h.udp, ?_⟩
  · rw [hlog, h.log, List.append_assoc]
  · rw [Event.steps_append, h.steps, hquiet]
    rfl

/-- A deadline check is no step. -/
theorem checked (h : Requested sent s s₁ new) :
    Requested sent s { s₁ with env := s₁.env.checked } (new ++ [.check s₁.env.clock.head?]) :=
  h.append rfl rfl rfl

/-- Whatever stops the exchange, its steps so far are the one send. -/
theorem failed (h : Requested sent s s₁ new) (e : ForwardError) :
    SendsFrom sent s (.error e) s₁ :=
  ⟨new, h.log, h.udp, .failed h.steps⟩

end Requested

/-- The request frame was written whole. -/
structure Wrote (exchange : Exchange) (s s' : Session) (writes : List Event) : Prop where
  request : Requested exchange.sent s s'
    (.tcpSend s.stream.peer exchange.sent.wire :: writes)
  writing : ∀ e ∈ writes, e.WritesTo s.stream.peer
  write : WritesRest exchange.deadline s.env.clock s.stream (frame exchange.sent.wire) (.ok ())
    writes s'.env.clock s'.stream

/-- The request frame was written, and then a frame with the given bytes was read. -/
structure Exchanged (exchange : Exchange) (bytes : List UInt8) (s s₁ s' : Session)
    (writes reads : List Event) : Prop where
  wrote : Wrote exchange s s₁ writes
  request : Requested exchange.sent s s'
    (.tcpSend s.stream.peer exchange.sent.wire :: (writes ++ reads))
  read : ReadsFrame exchange.deadline s₁.env.clock s₁.stream (.ok (some bytes)) reads
    s'.env.clock s'.stream

namespace Exchange

variable (exchange : Exchange) (s : Session)

/-- The write of the request frame, behind the event that announces it. -/
theorem writeFrame_ensures :
    Run.Ensures (· = { s with env := s.env.record (.tcpSend s.stream.peer exchange.sent.wire) })
      (Run.mapError ForwardError.ofIo (writeFrame exchange.sent.wire exchange.deadline))
      fun r s' => (∃ new, Requested exchange.sent s s' new) ∧
        (r = .ok () → ∃ writes, Wrote exchange s s' writes) := by
  rintro _ rfl
  obtain ⟨writes, hlog, hudp, hwrites, hwrite⟩ := writeFrame_log exchange.sent.wire
    exchange.deadline
    { s with env := s.env.record (.tcpSend s.stream.peer exchange.sent.wire) }
  rw [Run.exec_mapError]
  rcases hexec : (writeFrame exchange.sent.wire exchange.deadline).exec
    { s with env := s.env.record (.tcpSend s.stream.peer exchange.sent.wire) } with ⟨r, s₁⟩
  rw [hexec] at hlog hudp hwrite
  have hrequest : Requested exchange.sent s s₁
      (.tcpSend s.stream.peer exchange.sent.wire :: writes) := by
    refine ⟨?_, hudp, ?_⟩
    · rw [hlog]
      exact List.append_assoc ..
    · show _ :: Event.steps writes = _
      rw [Event.steps_of_writesTo hwrites]
  cases r with
  | error e => exact ⟨⟨_, hrequest⟩, nofun⟩
  | ok u =>
    obtain ⟨clock, hrun, hclock⟩ := hwrite rfl
    dsimp only at hrun hclock
    rw [← hclock] at hrun
    exact ⟨⟨_, hrequest⟩, fun _ => ⟨writes, hrequest, hwrites, hrun⟩⟩

/-- The read of the response frame, behind a request frame that was written. -/
theorem readFrame_ensures :
    Run.Ensures (fun s₁ => ∃ writes, Wrote exchange s s₁ writes)
      (Run.mapError ForwardError.ofIo (readFrame exchange.deadline))
      fun r s' => (∃ new, Requested exchange.sent s s' new) ∧
        ∀ bytes, r = .ok (some bytes) →
          ∃ s₁ writes reads, Exchanged exchange bytes s s₁ s' writes reads := by
  rintro s₁ ⟨writes, hwrote⟩
  obtain ⟨reads, clock, hread, henv⟩ := readFrame_run exchange.deadline s₁
  rw [Run.exec_mapError]
  rcases hexec : (readFrame exchange.deadline).exec s₁ with ⟨r, s₂⟩
  rw [hexec] at hread henv
  dsimp only at hread henv
  have hrequest : Requested exchange.sent s s₂
      (.tcpSend s.stream.peer exchange.sent.wire :: (writes ++ reads)) := by
    refine hwrote.request.append ?_ ?_ (Event.steps_of_readsFrom hread.events.2)
    · rw [henv]
      rfl
    · rw [henv]
      rfl
  cases r with
  | error e => exact ⟨⟨_, hrequest⟩, nofun⟩
  | ok result =>
    refine ⟨⟨_, hrequest⟩, fun bytes hbytes => ⟨s₁, writes, reads, hwrote, hrequest, ?_⟩⟩
    cases hbytes
    rw [henv]
    exact hread

end Exchange

/-- The frame that was read holds a response that validates. -/
theorem Exchanged.answered {exchange : Exchange} {bytes : List UInt8} {s s₁ s₂ : Session}
    {writes reads : List Event} (h : Exchanged exchange bytes s s₁ s₂ writes reads)
    {packet : Packet} {response : Response} (hparse : Packet.parse bytes = .ok packet)
    (hvalidate : exchange.sent.validateResponse packet = some response) :
    SendsFrom exchange.sent s (.ok response)
      { s₂ with env := s₂.env.checked.record (.accept s₂.stream.peer response) } := by
  obtain ⟨hwrite, hrequest, hread⟩ := h
  have hmiddle : s₁.stream.peer = s.stream.peer := hwrite.write.events.1
  have hfinal : s₂.stream.peer = s.stream.peer := hread.events.1.trans hmiddle
  -- What is read comes from the peer to which the query was written.
  have hreads : ∀ e ∈ reads, e.ReadsFrom s.stream.peer := hmiddle ▸ hread.events.2
  obtain ⟨hwire, hparsed⟩ : response.wire = bytes ∧ response.packet.Parsed := by
    obtain ⟨rfl, -⟩ := Dns.SentQuery.validateResponse_eq_some_iff.mp hvalidate
    exact ⟨Packet.wire_of_parse hparse, Packet.parsed_of_parse hparse⟩
  have hchecked := hrequest.checked
  refine ⟨.tcpSend s.stream.peer exchange.sent.wire :: (writes ++ reads) ++
    [.check s₂.env.clock.head?] ++ [.accept s.stream.peer response], ?_, hrequest.udp,
    .answered ?_ hfinal ?_ ?_⟩
  · show s₂.env.checked.log ++ [.accept s₂.stream.peer response] = _
    rw [hchecked.log, hfinal, List.append_assoc]
  · rw [Event.steps_append, hchecked.steps]
    rfl
  · refine ⟨hparsed, s.stream.peer, [], _, [], rfl, hchecked.steps, ?_⟩
    rw [Event.received_append]
    show Event.received (writes ++ reads) ++ [] = _
    rw [List.append_nil, Event.received_append, Event.received_of_writesTo hwrite.writing,
      hread.received.2, hwire, List.nil_append]
  -- The checks of the deadline are no traffic.
  · have htraffic : Event.traffic (.tcpSend s.stream.peer exchange.sent.wire :: (writes ++ reads) ++
          [.check s₂.env.clock.head?] ++ [.accept s.stream.peer response])
        = .tcpSend s.stream.peer exchange.sent.wire ::
          (Event.traffic writes ++ Event.traffic reads) := by
      rw [Event.traffic_append, Event.traffic_append]
      show .tcpSend s.stream.peer exchange.sent.wire :: Event.traffic (writes ++ reads) ++ [] ++ []
        = _
      rw [List.append_nil, List.append_nil, Event.traffic_append]
    rw [htraffic]
    exact .intro hwrite.write (hwrite.write.written.2 rfl) hwrite.writing hread hread.received.2
      hreads hparse hvalidate

/-- What `send_over_tcp` does. The frames come first, then a deadline check, the parser and the
validation, and each of them can end it. -/
theorem Exchange.sendOverTcp_ensures (exchange : Exchange) (s : Session) :
    Run.Ensures (· = s) exchange.sendOverTcp (SendsFrom exchange.sent s) := by
  unfold sendOverTcp
  intro s' hs
  rw [hs, Run.exec_bind, Session.record_exec]
  dsimp only
  refine Run.Ensures.bind (exchange.writeFrame_ensures s) ?_ (fun _ => ?_) _ rfl
  · rintro e s' ⟨⟨new, hrequest⟩, -⟩
    exact hrequest.failed e
  refine Run.Ensures.bind ((exchange.readFrame_ensures s).strengthen fun s₁ h => h.2 rfl) ?_
    fun result => ?_
  · rintro e s' ⟨⟨new, hrequest⟩, -⟩
    exact hrequest.failed e
  cases result with
  | none =>
    refine Run.Ensures.throw fun s' h => ?_
    obtain ⟨⟨new, hrequest⟩, -⟩ := h
    exact hrequest.failed _
  | some bytes =>
    refine Run.Ensures.bind (Session.checkDeadline_ensures exchange.deadline _) ?_ fun _ => ?_
    · rintro e s' ⟨s₂, ⟨⟨new, hrequest⟩, -⟩, rfl⟩
      exact hrequest.checked.failed e
    rintro s' ⟨s₂, ⟨⟨new, hrequest⟩, hexchanged⟩, rfl⟩
    cases hparse : Packet.parse bytes with
    | error e => exact hrequest.checked.failed _
    | ok packet =>
      dsimp only
      cases hvalidate : exchange.sent.validateResponse packet with
      | none => exact hrequest.checked.failed _
      | some response =>
        obtain ⟨s₁, writes, reads, h⟩ := hexchanged bytes rfl
        exact h.answered hparse hvalidate

/-- What one exchange on a stream does, whatever the peer does. -/
theorem Exchange.sendOverTcp_run (exchange : Exchange) (s : Session) :
    ∃ new, (exchange.sendOverTcp.exec s).2.env.log = s.env.log ++ new ∧
      (exchange.sendOverTcp.exec s).2.env.udp = s.env.udp ∧
      Sends exchange.sent s.stream (exchange.sendOverTcp.exec s).1
        (exchange.sendOverTcp.exec s).2.stream new :=
  exchange.sendOverTcp_ensures s s rfl

/-! ### One exchange of a forwarder -/

/-- A connection logs itself. A stream it opens is live. -/
theorem Env.connect_run (address : UpstreamAddress) (env : Env) :
    ((Env.connect address.socket).exec env).2.log = env.log ++ [.tcpConnect address.socket] ∧
      ((Env.connect address.socket).exec env).2.udp = env.udp ∧
      ∀ stream, ((Env.connect address.socket).exec env).1 = .ok stream →
        Live address stream ((Env.connect address.socket).exec env).2.log := by
  have hlog : ((Env.connect address.socket).exec env).2.log
      = env.log ++ [.tcpConnect address.socket] := by
    unfold connect
    rw [Run.exec_bind, Run.exec_step]
    dsimp only
    split <;> split <;> rfl
  refine ⟨hlog, ?_, fun stream hstream => ⟨?_, env, stream, [], hstream, .opened, ?_⟩⟩
  · unfold connect
    rw [Run.exec_bind, Run.exec_step]
    dsimp only
    split <;> split <;> rfl
  · unfold connect at hstream
    rw [Run.exec_bind, Run.exec_step] at hstream
    dsimp only at hstream
    split at hstream
    · cases hstream
    · cases hstream
      rfl
  · rw [hlog, Event.traffic_append]
    rfl

/-- What a reading of the clock does. -/
theorem Env.now_exec {ε : Type} (env : Env) :
    (Env.now : Run Env ε Nat).exec env
      = (.ok ((env.clock.head?.map Reading.now).getD 0),
          env.moved [.now (env.clock.head?.map Reading.now)] env.clock.tail) := by
  obtain ⟨clock, entropy, udp, tcp, log⟩ := env
  cases clock <;> rfl

namespace Forwarder

/-- What an operation of the world does to a forwarder. -/
theorem onEnv_exec {ε α : Type} (m : Run Env ε α) (s : Forwarder) :
    (onEnv m).exec s = ((m.exec s.env).1, { s with env := (m.exec s.env).2 }) := rfl

/-- What the deadline check of an exchange does. -/
theorem checkDeadline_exec (deadline : Deadline) (s : Forwarder) :
    (checkDeadline deadline).exec s
      = (((deadline.left s.env.clock.head?).mapError ForwardError.ofIo).map fun _ => (),
          { s with env := s.env.checked }) := by
  show (Run.mapError ForwardError.ofIo (onEnv deadline.remaining) >>= fun _ =>
    pure ()).exec s = _
  rw [Run.exec_bind, Run.exec_mapError, onEnv_exec, deadline.remaining_exec]
  cases deadline.left s.env.clock.head? <;> rfl

/-- Opening a stream within the deadline: the steps, and the stream it opens. -/
theorem connect_run (address : UpstreamAddress) (deadline : Deadline) (s : Forwarder) :
    ((connect address deadline).exec s).2.tcp = s.tcp ∧
      ((connect address deadline).exec s).2.env.udp = s.env.udp ∧
      ∃ new, ((connect address deadline).exec s).2.env.log = s.env.log ++ new ∧
        (Event.steps new = [.tcpConnect address.socket] ∨
          Event.steps new = [] ∧ ∃ e, ((connect address deadline).exec s).1 = .error e) ∧
        ∀ stream, ((connect address deadline).exec s).1 = .ok stream →
          Live address stream ((connect address deadline).exec s).2.env.log := by
  unfold connect
  rw [Run.exec_bind, checkDeadline_exec]
  cases hleft : deadline.left s.env.clock.head? with
  | error e => exact ⟨rfl, rfl, _, rfl, .inr ⟨rfl, _, rfl⟩, fun stream h => nomatch h⟩
  | ok left =>
    dsimp only [Except.mapError, Except.map, onIo]
    obtain ⟨hlog, hudp, hlive⟩ := Env.connect_run address s.env.checked
    rw [Run.exec_mapError, onEnv_exec]
    rcases hexec : (Env.connect address.socket).exec s.env.checked with ⟨e | stream, env⟩
    · rw [hexec] at hlog hudp
      refine ⟨rfl, hudp, [.check s.env.clock.head?, .tcpConnect address.socket], ?_, .inl rfl,
        fun stream h => nomatch h⟩
      rw [hlog]
      exact List.append_assoc ..
    · rw [hexec] at hlog hudp hlive
      refine ⟨rfl, hudp, [.check s.env.clock.head?, .tcpConnect address.socket], ?_, .inl rfl, ?_⟩
      · rw [hlog]
        exact List.append_assoc ..
      · intro stream' h
        cases h
        exact hlive stream rfl

/-- The steps of an exchange on an open stream: it is refused, or it sends once. -/
inductive SendSteps (peer : SocketAddr) (wire : List UInt8) :
    Except ForwardError Response → List Event → Prop
  | refused {e : ForwardError} : SendSteps peer wire (.error e) []
  | failed {e : ForwardError} : SendSteps peer wire (.error e) [.tcpSend peer wire]
  | answered {response : Response} :
      SendSteps peer wire (.ok response) [.tcpSend peer wire, .accept peer response]

/-- The steps of an exchange on a new connection. -/
inductive FreshSteps (peer : SocketAddr) (wire : List UInt8) :
    Except ForwardError Response → List Event → Prop
  | late {e : ForwardError} : FreshSteps peer wire (.error e) []
  | unconnected {e : ForwardError} : FreshSteps peer wire (.error e) [.tcpConnect peer]
  | connected {r : Except ForwardError Response} {steps : List Event}
      (send : SendSteps peer wire r steps) : FreshSteps peer wire r (.tcpConnect peer :: steps)

/-- The steps of `tcp_exchange` with the given cached connection. Only a connection cached for
the address is reused, only a failure on a reused stream is repeated, and only on a new
connection. -/
inductive ExchangeSteps (address : UpstreamAddress) (wire : List UInt8)
    (cached : Option CachedConnection) : Except ForwardError Response → List Event → Prop
  | fresh {r : Except ForwardError Response} {steps : List Event}
      (fresh : FreshSteps address.socket wire r steps) : ExchangeSteps address wire cached r steps
  | refused {connection : CachedConnection} {e : ForwardError} (reused : cached = some connection)
      (same : connection.address = address) :
      ExchangeSteps address wire cached (.error e) [.tcpReuse connection.stream.peer]
  | answered {connection : CachedConnection} {response : Response}
      (reused : cached = some connection) (same : connection.address = address) :
      ExchangeSteps address wire cached (.ok response)
        [.tcpReuse connection.stream.peer, .tcpSend connection.stream.peer wire,
          .accept connection.stream.peer response]
  | repeated {connection : CachedConnection} {r : Except ForwardError Response}
      {steps : List Event} (reused : cached = some connection)
      (same : connection.address = address) (again : FreshSteps address.socket wire r steps) :
      ExchangeSteps address wire cached r
        (.tcpReuse connection.stream.peer :: .tcpSend connection.stream.peer wire :: steps)

/-- How an exchange ends: with an error and an empty cache, or with a response and a stream in
the cache, which is live under the assumption `A`. -/
inductive LeavesCache (address : UpstreamAddress) (A : Prop) :
    Except ForwardError Response → Forwarder → Prop
  | failed {e : ForwardError} {s : Forwarder} (empty : s.tcp = none) :
      LeavesCache address A (.error e) s
  | answered {response : Response} {s : Forwarder} {stream : TcpStream} {lastUsed : Nat}
      (cached : s.tcp = some ⟨address, stream, lastUsed⟩)
      (live : A → Live address stream s.env.log) : LeavesCache address A (.ok response) s

/-- How a program that makes an exchange of `wire` from `s` ends, and which steps it logs. -/
structure EndsIn (address : UpstreamAddress) (wire : List UInt8) (A : Prop)
    (Steps : Except ForwardError Response → List Event → Prop) (s : Forwarder)
    (out : Except ForwardError Response × Forwarder) : Prop where
  settled : LeavesCache address A out.1 out.2
  udp : out.2.env.udp = s.env.udp
  log : ∃ new, out.2.env.log = s.env.log ++ new ∧ Steps out.1 (Event.steps new) ∧
    ∀ response, out.1 = .ok response → Arrives wire response new

section

variable {address : UpstreamAddress} {wire : List UInt8} {A A' : Prop}
  {Steps Steps' : Except ForwardError Response → List Event → Prop} {s s' : Forwarder}
  {r : Except ForwardError Response} {out : Except ForwardError Response × Forwarder}
  {new : List Event}

/-- The assumption may be weaker. -/
theorem LeavesCache.mono (h : LeavesCache address A r s) (hA : A' → A) :
    LeavesCache address A' r s := by
  cases h with
  | failed empty => exact .failed empty
  | answered cached live => exact .answered cached fun h => live (hA h)

/-- The steps before the start of a program are put in front of its own. -/
theorem EndsIn.after (h : EndsIn address wire A Steps s' out)
    (hlog : s'.env.log = s.env.log ++ new) (hudp : s'.env.udp = s.env.udp) (hA : A' → A)
    (hsteps : ∀ r steps, Steps r steps → Steps' r (Event.steps new ++ steps)) :
    EndsIn address wire A' Steps' s out := by
  obtain ⟨new', hlog', hrest, harrives⟩ := h.log
  refine ⟨h.settled.mono hA, h.udp.trans hudp, new ++ new', ?_, ?_, fun response hok => ?_⟩
  · rw [hlog', hlog, List.append_assoc]
  · rw [Event.steps_append]
    exact hsteps _ _ hrest
  · exact (harrives response hok).prepend new

/-- A program that ends with an error and an empty cache. -/
theorem EndsIn.failed {e : ForwardError} (hempty : s'.tcp = none)
    (hudp : s'.env.udp = s.env.udp) (hlog : s'.env.log = s.env.log ++ new)
    (hsteps : Steps (.error e) (Event.steps new)) :
    EndsIn address wire A Steps s (.error e, s') :=
  ⟨.failed hempty, hudp, new, hlog, hsteps, fun _ h => nomatch h⟩

end

/-- The ways `sendOn` can end. A live stream stays live when the exchange succeeds. -/
inductive SentOn (wire : List UInt8) (stream : TcpStream) (log new : List Event) :
    Except ForwardError (Except ForwardError Response × TcpStream) → List Event → Prop
  | refused {e : ForwardError} : SentOn wire stream log new (.error e) []
  | failed {e : ForwardError} {final : TcpStream} :
      SentOn wire stream log new (.ok (.error e, final)) [.tcpSend stream.peer wire]
  | answered {response : Response} {final : TcpStream} (arrives : Arrives wire response new)
      (live : ∀ address, Live address stream log → Live address final (log ++ new)) :
      SentOn wire stream log new (.ok (.ok response, final))
        [.tcpSend stream.peer wire, .accept stream.peer response]

/-- What one exchange on a stream does to the forwarder. -/
theorem sendOn_run (exchange : Exchange) (stream : TcpStream) (s : Forwarder) :
    ((sendOn exchange stream).exec s).2.tcp = s.tcp ∧
      ((sendOn exchange stream).exec s).2.env.udp = s.env.udp ∧
      ∃ new, ((sendOn exchange stream).exec s).2.env.log = s.env.log ++ new ∧
        SentOn exchange.sent.wire stream s.env.log new ((sendOn exchange stream).exec s).1
          (Event.steps new) := by
  have hnodelay : ∀ {address}, Live address stream s.env.log →
      Live address stream.setNodelay.2 s.env.log := Live.nodelay
  have hsame := stream.peer_setNodelay
  unfold sendOn setNodelay
  rw [Run.exec_bind]
  rcases hset : stream.setNodelay with ⟨_ | kind, stream'⟩
  -- `TCP_NODELAY` is set, and the query goes out on the stream.
  · rw [hset] at hnodelay hsame
    dsimp only at hnodelay hsame ⊢
    obtain ⟨new, hlog, hudp, hsends⟩ := exchange.sendOverTcp_run ⟨s.env, stream'⟩
    refine ⟨rfl, hudp, new, hlog, ?_⟩
    show SentOn exchange.sent.wire stream s.env.log new
      (.ok ((exchange.sendOverTcp.exec ⟨s.env, stream'⟩).1,
        (exchange.sendOverTcp.exec ⟨s.env, stream'⟩).2.stream)) (Event.steps new)
    rcases hexec : exchange.sendOverTcp.exec ⟨s.env, stream'⟩ with ⟨r, session⟩
    rw [hexec] at hsends
    dsimp only at hsends ⊢
    cases hsends with
    | failed steps =>
      rw [steps, hsame]
      exact .failed
    | answered steps peer arrives complete =>
      rw [steps, hsame]
      -- A stream that was in step is in step again behind a whole exchange.
      refine .answered arrives fun address hlive => ?_
      obtain ⟨hpeer, env, origin, exchanges, horigin, hsync, htraffic⟩ := hnodelay hlive
      refine ⟨peer.trans hpeer, env, origin, _, horigin, hsync.exchange complete, ?_⟩
      rw [Event.traffic_append, htraffic]
      exact List.append_assoc ..
  · exact ⟨rfl, rfl, [], (List.append_nil _).symm, .refused⟩

/-- Caching the stream of a successful exchange. -/
theorem cacheSuccess_run {address : UpstreamAddress} {wire : List UInt8} {A : Prop}
    {Steps : Except ForwardError Response → List Event → Prop} {response : Response}
    {stream : TcpStream} {s s' : Forwarder} {new : List Event}
    (hlive : A → Live address stream (s.env.log ++ new)) (harrives : Arrives wire response new)
    (hlog : s'.env.log = s.env.log ++ new) (hudp : s'.env.udp = s.env.udp)
    (hsteps : Steps (.ok response) (Event.steps new)) :
    EndsIn address wire A Steps s ((cacheSuccess address (.ok response) stream).exec s') := by
  unfold cacheSuccess
  dsimp only
  rw [Run.exec_bind, onEnv_exec, Env.now_exec]
  have hlog' : s'.env.log ++ [.now (s'.env.clock.head?.map Reading.now)]
      = s.env.log ++ (new ++ [.now (s'.env.clock.head?.map Reading.now)]) := by
    rw [hlog, List.append_assoc]
  refine ⟨.answered rfl fun h => ?_, hudp, _, hlog', ?_, fun response' h => ?_⟩
  · show Live address stream (s'.env.log ++ [.now (s'.env.clock.head?.map Reading.now)])
    rw [hlog]
    exact (hlive h).quiet rfl
  · rw [Event.steps_append]
    show Steps (.ok response) (Event.steps new ++ [])
    rw [List.append_nil]
    exact hsteps
  · cases h
    exact harrives.append _

/-- Sending on a live stream, from an empty cache, and caching the stream. -/
theorem sendOn_cache_run (exchange : Exchange) {address : UpstreamAddress} {stream : TcpStream}
    {s : Forwarder} (hlive : Live address stream s.env.log) (hempty : s.tcp = none) :
    EndsIn address exchange.sent.wire True (SendSteps address.socket exchange.sent.wire) s
      ((do
        let sent ← sendOn exchange stream
        cacheSuccess address sent.1 sent.2).exec s) := by
  rw [Run.exec_bind]
  obtain ⟨htcp, hudp, new, hlog, hsent⟩ := sendOn_run exchange stream s
  rcases hexec : (sendOn exchange stream).exec s with ⟨r, s'⟩
  rw [hexec] at htcp hudp hlog hsent
  dsimp only at htcp hudp hlog hsent
  have hpeer := hlive.peer
  generalize hsteps : Event.steps new = steps at hsent
  cases hsent with
  | refused => exact .failed (htcp.trans hempty) hudp hlog (hsteps ▸ .refused)
  | failed => exact .failed (htcp.trans hempty) hudp hlog (hpeer ▸ hsteps ▸ .failed)
  | answered arrives live =>
    refine cacheSuccess_run (fun _ => live address hlive) arrives hlog hudp ?_
    rw [hsteps, hpeer]
    exact .answered

/-- An exchange on a new connection, from an empty cache. -/
theorem fresh_run (address : UpstreamAddress) (exchange : Exchange) {s : Forwarder}
    (hempty : s.tcp = none) :
    EndsIn address exchange.sent.wire True (FreshSteps address.socket exchange.sent.wire) s
      ((do
        let stream ← connect address exchange.deadline
        let sent ← sendOn exchange stream
        cacheSuccess address sent.1 sent.2).exec s) := by
  rw [Run.exec_bind]
  obtain ⟨htcp, hudp, new, hlog, hsteps, hlive⟩ := connect_run address exchange.deadline s
  rcases hexec : (connect address exchange.deadline).exec s with ⟨e | stream, s'⟩
  · rw [hexec] at htcp hudp hlog
    refine .failed (htcp.trans hempty) hudp hlog ?_
    rcases hsteps with hsteps | ⟨hsteps, -⟩
    · rw [hsteps]
      exact .unconnected
    · rw [hsteps]
      exact .late
  · rw [hexec] at htcp hudp hlog hsteps hlive
    refine (sendOn_cache_run exchange (hlive stream rfl) (htcp.trans hempty)).after hlog hudp id ?_
    intro r steps hsend
    rcases hsteps with hsteps | ⟨-, e, he⟩
    · rw [hsteps]
      exact .connected hsend
    · cases he

/-- An exchange that starts on a cached stream. -/
theorem reuse_run (exchange : Exchange) {address : UpstreamAddress}
    {connection : CachedConnection} {cached : Option CachedConnection} {s : Forwarder}
    (hreused : cached = some connection) (hsame : connection.address = address)
    (hempty : s.tcp = none) :
    EndsIn address exchange.sent.wire (Live address connection.stream s.env.log)
      (ExchangeSteps address exchange.sent.wire cached) s
      ((do
        let stream ← streamFor address exchange.deadline (some connection)
        let sent ← sendOn exchange stream
        if (some connection).isSome ∧ sent.1.isOk = false then do
          let stream ← connect address exchange.deadline
          let sent ← sendOn exchange stream
          cacheSuccess address sent.1 sent.2
        else cacheSuccess address sent.1 sent.2).exec s) := by
  dsimp only [streamFor]
  rw [Run.exec_bind, Run.exec_bind, record, Run.exec_modify]
  dsimp only
  rw [Run.exec_pure]
  dsimp only
  rw [Run.exec_bind]
  -- The program goes on from here, with the reuse in the log.
  suffices hrest : EndsIn address exchange.sent.wire
      (Live address connection.stream (s.env.record (.tcpReuse connection.stream.peer)).log)
      (fun r steps => ExchangeSteps address exchange.sent.wire cached r
        (.tcpReuse connection.stream.peer :: steps))
      { s with env := s.env.record (.tcpReuse connection.stream.peer) } _ from
    hrest.after rfl rfl (fun hlive => hlive.quiet rfl) fun r steps h => h
  obtain ⟨htcp, hudp, new, hlog, hsent⟩ := sendOn_run exchange connection.stream
    { s with env := s.env.record (.tcpReuse connection.stream.peer) }
  rcases hexec : (sendOn exchange connection.stream).exec
    { s with env := s.env.record (.tcpReuse connection.stream.peer) } with ⟨r, s'⟩
  rw [hexec] at htcp hudp hlog hsent
  dsimp only at htcp hudp hlog hsent
  generalize hsteps : Event.steps new = steps at hsent
  cases hsent with
  | refused => exact .failed (htcp.trans hempty) hudp hlog (hsteps ▸ .refused hreused hsame)
  | failed =>
    -- A failure on the reused stream: once more, on a new connection.
    refine EndsIn.after (fresh_run address exchange (htcp.trans hempty)) hlog hudp
      (fun _ => trivial) ?_
    intro r steps hfresh
    rw [hsteps]
    exact .repeated hreused hsame hfresh
  | answered arrives live =>
    refine cacheSuccess_run (live address) arrives hlog hudp ?_
    rw [hsteps]
    exact .answered hreused hsame

/-- Expiry looks at the clock only for a cached connection. -/
theorem expireIdle_run {ε : Type} (s : Forwarder) :
    ((expireIdle : Run Forwarder ε Unit).exec s).1 = .ok () ∧
      (((expireIdle : Run Forwarder ε Unit).exec s).2.tcp = none ∨
        ((expireIdle : Run Forwarder ε Unit).exec s).2.tcp = s.tcp) ∧
      ((expireIdle : Run Forwarder ε Unit).exec s).2.env.udp = s.env.udp ∧
      ∃ new, ((expireIdle : Run Forwarder ε Unit).exec s).2.env.log = s.env.log ++ new ∧
        Event.traffic new = [] ∧ Event.steps new = [] := by
  unfold expireIdle
  rw [Run.exec_bind, Run.exec_get]
  dsimp only
  cases htcp : s.tcp with
  | none => exact ⟨rfl, .inl htcp, rfl, [], (List.append_nil _).symm, rfl, rfl⟩
  | some connection =>
    dsimp only
    rw [Run.exec_bind, onEnv_exec, Env.now_exec]
    dsimp only
    rw [Run.exec_ite]
    split
    · exact ⟨rfl, .inl rfl, rfl, _, rfl, rfl, rfl⟩
    · exact ⟨rfl, .inr htcp, rfl, _, rfl, rfl, rfl⟩

/-- The cached connection, if any, is live. -/
def Synchronised (s : Forwarder) : Prop :=
  ∀ connection, s.tcp = some connection → Live connection.address connection.stream s.env.log

/-- Nothing but quiet events was logged, and the cached connection is the same or gone. -/
theorem Synchronised.quiet {s s' : Forwarder} {new : List Event} (h : Synchronised s)
    (htcp : s'.tcp = none ∨ s'.tcp = s.tcp) (hlog : s'.env.log = s.env.log ++ new)
    (hnew : Event.traffic new = []) : Synchronised s' := by
  intro connection hconnection
  rcases htcp with htcp | htcp
  · rw [htcp] at hconnection
    cases hconnection
  · rw [hlog]
    rw [htcp] at hconnection
    exact (h connection hconnection).quiet hnew

/-- What `tcp_exchange` does. -/
theorem tcpExchange_run (address : UpstreamAddress) (exchange : Exchange) (s : Forwarder) :
    EndsIn address exchange.sent.wire (Synchronised s)
      (ExchangeSteps address exchange.sent.wire s.tcp) s
      ((tcpExchange address exchange).exec s) := by
  unfold tcpExchange
  rw [Run.exec_bind]
  obtain ⟨hok, htcp, hudp, new, hlog, htraffic, hsteps⟩ := @expireIdle_run ForwardError s
  have hs : Synchronised s → _ := fun hs => hs.quiet htcp hlog htraffic
  -- The idle connection may go first, which neither reads nor writes.
  rcases hexec : (expireIdle : Run Forwarder ForwardError Unit).exec s with ⟨r, s₁⟩
  rw [hexec] at hok htcp hudp hlog hs
  cases hok
  dsimp only at htcp hudp hlog hs ⊢
  rw [Run.exec_bind, takeCached, Run.exec_step]
  dsimp only
  cases hcached : s₁.tcp.filter fun connection => decide (connection.address = address) with
  -- No connection to this server is cached, so a fresh one is opened.
  | none =>
    dsimp only [streamFor]
    simp only [Option.isSome_none, Bool.false_eq_true, false_and, if_false]
    refine EndsIn.after (fresh_run address exchange rfl) hlog hudp (fun _ => trivial) ?_
    intro r steps hfresh
    rw [hsteps]
    exact .fresh hfresh
  -- The cached connection is tried first, and a fresh one if it turns out stale.
  | some connection =>
    obtain ⟨hconnection, haddress⟩ := Option.filter_eq_some_iff.mp hcached
    have haddress := of_decide_eq_true haddress
    have hreused : s.tcp = some connection := by
      rcases htcp with htcp | htcp
      · rw [htcp] at hconnection
        cases hconnection
      · rw [← htcp, hconnection]
    refine EndsIn.after (@reuse_run exchange address connection s.tcp { s₁ with tcp := none }
      hreused haddress rfl) hlog hudp (fun h => haddress ▸ hs h connection hconnection) ?_
    intro r steps hreuse
    rw [hsteps]
    exact hreuse

end Forwarder

end Sederial
