import Sederial.Proofs.TcpExchange
import Sederial.Proofs.UdpLimit

/-!
# `Sederial.Proofs.Transparency`: messages pass through unchanged

A forwarded message differs from the client's only in its ID, unless a BADCOOKIE response asks
for a new server cookie. `Transparent` describes the steps of one visit this way: it carries the
message that the next send must repeat, and only the acceptance of such a BADCOOKIE changes it.
`Conversation` says it of a whole walk, where each visit starts again from the client's message.

On the way back, `Arrived` says where the bytes of a response come from: a datagram of a UDP
socket, or a frame read from a TCP stream between sending the query and accepting the response.
-/

set_option autoImplicit false

namespace Sederial

open Sederial.Lib
open Sederial.Dns (Packet Query Response SentQuery maxMessageLength setId)

/-- The two messages have the same length and the same bytes from offset 2 on. -/
def SameMessage (wire wire' : List UInt8) : Prop :=
  wire'.length = wire.length ∧ wire'.drop 2 = wire.drop 2

/-- A message is the same as itself. -/
theorem SameMessage.refl (wire : List UInt8) : SameMessage wire wire := ⟨rfl, rfl⟩

/-- A message under another ID. -/
theorem sameMessage_setId {wire : List UInt8} (id : Dns.TransactionId) (h : 2 ≤ wire.length) :
    SameMessage wire (setId wire id) :=
  ⟨Dns.length_setId id h, rfl⟩

/-- The message that an event sends. -/
def Event.message : Event → Option (List UInt8)
  | .udpSend _ wire | .tcpSend _ wire => some wire
  | _ => none

/-- What a visit sends after it accepted a response to `sent`: only a BADCOOKIE with a new
server cookie rewrites the message. -/
def Dns.SentQuery.nextMessage (sent : SentQuery) (response : Response) : List UInt8 :=
  if response.responseCode = .badCookie then
    match sent.serverCookieRetry response with
    | .rewrite wire => wire
    | .absent | .discard | .current | .tcp => sent.wire
  else sent.wire

/-- The steps of a visit whose next message must repeat the given one. -/
inductive Transparent : List UInt8 → List Event → Prop
  | done {previous : List UInt8} : Transparent previous []
  | connects {previous : List UInt8} {peer : SocketAddr} {steps : List Event}
      (rest : Transparent previous steps) : Transparent previous (.tcpConnect peer :: steps)
  | reuses {previous : List UInt8} {peer : SocketAddr} {steps : List Event}
      (rest : Transparent previous steps) : Transparent previous (.tcpReuse peer :: steps)
  | sends {previous wire : List UInt8} {step : Event} {steps : List Event}
      (message : step.message = some wire) (same : SameMessage previous wire)
      (rest : Transparent wire steps) : Transparent previous (step :: steps)
  | accepts {sent : SentQuery} {peer : SocketAddr} {response : Response} {steps : List Event}
      (parsed : Packet.parse sent.wire = .ok sent.packet)
      (rest : Transparent (sent.nextMessage response) steps) :
      Transparent sent.wire (.accept peer response :: steps)

/-- The steps of a walk for the message: outside a visit nothing is sent, and every visit starts
from the message. -/
inductive Conversation (wire : List UInt8) : List Event → Prop
  | ends {steps : List Event} (silent : ∀ step ∈ steps, ∃ address, step = .attempt address) :
      Conversation wire steps
  | visit {a : UpstreamAddress} {r : Except ForwardError Response} {pre body steps : List Event}
      (silent : ∀ step ∈ pre, ∃ address, step = .attempt address)
      (inside : Transparent wire body) (next : Conversation wire steps) :
      Conversation wire (pre ++ .visit a :: (body ++ .outcome a r :: steps))

/-- How the bytes of an accepted response arrived: in a datagram of one of the sockets, cut to
the size of the receive buffer, or in a frame. -/
inductive Arrived (sockets : List UdpScript) (response : Response) (events : List Event) : Prop
  | datagram {script : UdpScript} {bytes : List UInt8} {peer : SocketAddr}
      (socket : script ∈ sockets) (arrived : .datagram bytes ∈ script.incoming)
      (whole : response.wire = bytes.take maxMessageLength)
      (parsed : Packet.parse response.wire = .ok response.packet)
      (accepted : .accept peer response ∈ events)
  | frame {wire : List UInt8} (arrives : Arrives wire response events)

namespace Arrived

variable {sockets : List UdpScript} {response : Response} {events : List Event}

/-- More events may come before. -/
theorem prepend (h : Arrived sockets response events) (more : List Event) :
    Arrived sockets response (more ++ events) := by
  cases h with
  | datagram socket arrived whole parsed accepted =>
    exact .datagram socket arrived whole parsed (List.mem_append_right more accepted)
  | frame arrives => exact .frame (arrives.prepend more)

/-- More events may come after. -/
theorem append (h : Arrived sockets response events) (more : List Event) :
    Arrived sockets response (events ++ more) := by
  cases h with
  | datagram socket arrived whole parsed accepted =>
    exact .datagram socket arrived whole parsed (List.mem_append_left more accepted)
  | frame arrives => exact .frame (arrives.append more)

/-- An accepted response was parsed. -/
theorem parsed (h : Arrived sockets response events) : response.packet.Parsed := by
  cases h with
  | datagram socket arrived whole parsed accepted => exact parsed
  | frame arrives => exact arrives.1

end Arrived

/-! ### One exchange -/

/-- A step of an exchange of the message, before its end. -/
def Event.Asking (wire : List UInt8) (step : Event) : Prop :=
  (∃ peer, step = .tcpConnect peer) ∨ (∃ peer, step = .tcpReuse peer) ∨ step.message = some wire

/-- The steps of an exchange of the message: it sends nothing else, and it accepts a response
only after it sent the message. -/
inductive Asks (wire : List UInt8) : Except ForwardError Response → List Event → Prop
  | failed {e : ForwardError} {steps : List Event} (asking : ∀ step ∈ steps, step.Asking wire) :
      Asks wire (.error e) steps
  | answered {response : Response} {peer : SocketAddr} {steps : List Event}
      (asking : ∀ step ∈ steps, step.Asking wire)
      (sent : ∃ step ∈ steps, step.message = some wire) :
      Asks wire (.ok response) (steps ++ [.accept peer response])

/-- Steps that ask for the message, in front of steps that go on from the last message sent. -/
theorem Transparent.asking {wire previous : List UInt8} {steps rest : List Event}
    (hasking : ∀ step ∈ steps, step.Asking wire) (hsame : SameMessage previous wire)
    (hrest : Transparent wire rest)
    (hunsent : (∀ step ∈ steps, step.message ≠ some wire) → Transparent previous rest) :
    Transparent previous (steps ++ rest) := by
  induction steps generalizing previous with
  | nil => exact hunsent fun step hstep => nomatch hstep
  | cons step steps ih =>
    obtain ⟨hstep, hsteps⟩ := List.forall_mem_cons.mp hasking
    by_cases hmessage : step.message = some wire
    · exact .sends hmessage hsame (ih hsteps (.refl wire) fun _ => hrest)
    · have hunsent' : (∀ step ∈ steps, step.message ≠ some wire) → Transparent previous rest :=
        fun h => hunsent (List.forall_mem_cons.mpr ⟨hmessage, h⟩)
      rcases hstep with ⟨peer, rfl⟩ | ⟨peer, rfl⟩ | hstep
      · exact .connects (ih hsteps hsame hunsent')
      · exact .reuses (ih hsteps hsame hunsent')
      · exact (hmessage hstep).elim

namespace Asks

variable {wire previous : List UInt8} {steps rest : List Event}

/-- A failed exchange ends its visit. -/
theorem transparent {e : ForwardError} (h : Asks wire (.error e) steps)
    (hsame : SameMessage previous wire) : Transparent previous steps := by
  cases h with
  | failed asking =>
    rw [← List.append_nil steps]
    exact .asking asking hsame .done fun _ => .done

/-- After an accepted response the visit goes on from what the response asks for. -/
theorem transparent_append {sent : SentQuery} {response : Response}
    (h : Asks sent.wire (.ok response) steps) (hsame : SameMessage previous sent.wire)
    (hparsed : Packet.parse sent.wire = .ok sent.packet)
    (hrest : Transparent (sent.nextMessage response) rest) :
    Transparent previous (steps ++ rest) := by
  cases h with
  | @answered response peer steps asking sent' =>
    rw [List.append_assoc]
    refine .asking asking hsame (.accepts hparsed hrest) fun hunsent => ?_
    obtain ⟨step, hstep, hmessage⟩ := sent'
    exact (hunsent step hstep hmessage).elim

end Asks

/-- An exchange on a stream asks for the message, with what was asked before it. -/
theorem Forwarder.SendSteps.asks {peer : SocketAddr} {wire : List UInt8} {pre steps : List Event}
    {r : Except ForwardError Response} (h : SendSteps peer wire r steps)
    (hpre : ∀ step ∈ pre, step.Asking wire) : Asks wire r (pre ++ steps) := by
  have hsend : ∀ step ∈ [Event.tcpSend peer wire], step.Asking wire := by
    intro step hstep
    rw [List.mem_singleton.mp hstep]
    exact .inr (.inr rfl)
  cases h with
  | refused =>
    rw [List.append_nil]
    exact .failed hpre
  | failed => exact .failed (List.forall_mem_append.mpr ⟨hpre, hsend⟩)
  | @answered response =>
    have hsplit : pre ++ [.tcpSend peer wire, .accept peer response]
        = pre ++ [.tcpSend peer wire] ++ [.accept peer response] := by
      rw [List.append_assoc]
      rfl
    rw [hsplit]
    refine .answered (List.forall_mem_append.mpr ⟨hpre, hsend⟩) ?_
    exact ⟨_, List.mem_append_right pre (List.mem_singleton_self _), rfl⟩

/-- So does an exchange on a new stream. -/
theorem Forwarder.FreshSteps.asks {peer : SocketAddr} {wire : List UInt8} {pre steps : List Event}
    {r : Except ForwardError Response} (h : FreshSteps peer wire r steps)
    (hpre : ∀ step ∈ pre, step.Asking wire) : Asks wire r (pre ++ steps) := by
  have hconnect : ∀ step ∈ pre ++ [Event.tcpConnect peer], step.Asking wire := by
    refine List.forall_mem_append.mpr ⟨hpre, fun step hstep => ?_⟩
    exact .inl ⟨peer, List.mem_singleton.mp hstep⟩
  cases h with
  | late =>
    rw [List.append_nil]
    exact .failed hpre
  | unconnected => exact .failed hconnect
  | @connected r steps send =>
    have hsplit : pre ++ .tcpConnect peer :: steps = pre ++ [.tcpConnect peer] ++ steps := by
      rw [List.append_assoc]
      rfl
    rw [hsplit]
    exact send.asks hconnect

/-- An exchange over TCP, after steps that asked for the message already. -/
theorem Forwarder.ExchangeSteps.asks {address : UpstreamAddress} {wire : List UInt8}
    {cached : Option CachedConnection} {pre steps : List Event}
    {r : Except ForwardError Response} (h : ExchangeSteps address wire cached r steps)
    (hpre : ∀ step ∈ pre, step.Asking wire) : Asks wire r (pre ++ steps) := by
  have hreuse : ∀ peer, ∀ step ∈ pre ++ [Event.tcpReuse peer], step.Asking wire := by
    intro peer
    refine List.forall_mem_append.mpr ⟨hpre, fun step hstep => ?_⟩
    exact .inr (.inl ⟨peer, List.mem_singleton.mp hstep⟩)
  have hsplit : ∀ peer (steps : List Event),
      pre ++ .tcpReuse peer :: steps = pre ++ [.tcpReuse peer] ++ steps := by
    intro peer steps
    rw [List.append_assoc]
    rfl
  cases h with
  | fresh fresh => exact fresh.asks hpre
  | refused reused same => exact .failed (hreuse _)
  | answered reused same =>
    rw [hsplit]
    exact SendSteps.answered.asks (hreuse _)
  | @repeated connection r steps reused same again =>
    -- What was sent on the reused stream counts as asked when the exchange starts over.
    have hagain : pre ++ .tcpReuse connection.stream.peer ::
          .tcpSend connection.stream.peer wire :: steps
        = pre ++ [.tcpReuse connection.stream.peer, .tcpSend connection.stream.peer wire]
          ++ steps := by
      rw [List.append_assoc]
      rfl
    rw [hagain]
    refine again.asks (List.forall_mem_append.mpr ⟨hpre, fun step hstep => ?_⟩)
    rcases List.mem_cons.mp hstep with rfl | hstep
    · exact .inr (.inl ⟨_, rfl⟩)
    · rw [List.mem_singleton.mp hstep]
      exact .inr (.inr rfl)

/-! ### Exchanges of a forwarder -/

namespace Forwarder

variable {sockets : List UdpScript}

/-- The sockets still to be opened are among the given ones. -/
def Within (sockets : List UdpScript) (s : Forwarder) : Prop :=
  ∀ script ∈ s.env.udp, script ∈ sockets

/-- The program takes no step, and its value satisfies `A`. -/
def Idle {ε α : Type} (A : α → Prop) (r : Except ε α) (new : List Event) : Prop :=
  Event.steps new = [] ∧ ∀ a, r = .ok a → A a

section

variable {ε α : Type}

/-- An operation of the world keeps the sockets that are left. -/
theorem onEnv_within {m : Run Env ε α} {R : Except ε α → List Event → Prop}
    (hudp : ∀ env, ∀ script ∈ (m.exec env).2.udp, script ∈ env.udp)
    (h : Traced (fun _ => True) m R) : Traced (Within sockets) (onEnv m) R :=
  fun s hs => ⟨fun script hscript => hs script (hudp s.env script hscript), (h s.env trivial).2⟩

/-- The forwarder logs what it records. -/
theorem record_within (e : Event) :
    Traced (Within sockets) (record e : Run Forwarder ε Unit) fun r new =>
      ∃ u, r = .ok u ∧ new = [e] :=
  .modify fun _ hs => ⟨hs, [e], rfl, (), rfl, rfl⟩

/-- A deadline check is no step. -/
theorem checkDeadline_idle (deadline : Deadline) :
    Traced (Within sockets) (checkDeadline deadline) (Idle fun _ => True) := by
  intro s hs
  rw [checkDeadline_exec]
  exact ⟨hs, [.check s.env.clock.head?], rfl, rfl, fun _ _ => trivial⟩

/-- A call that failed is no step. -/
theorem checkCall_idle (answer : Option ErrorKind) :
    Traced (Within sockets) (checkCall answer) (Idle fun _ => True) := by
  cases answer with
  | none => exact .pure ⟨rfl, fun _ _ => trivial⟩
  | some kind => exact .throw ⟨rfl, fun _ _ => trivial⟩

/-- A fresh transaction ID is no step. -/
theorem nextTransactionId_idle :
    Traced (Within sockets) nextTransactionId (Idle fun _ => True) := by
  have hudp : ∀ env, ∀ script ∈ ((Env.readEntropy : Run Env ForwardError _).exec env).2.udp,
      script ∈ env.udp := by
    intro env script hscript
    unfold Env.readEntropy at hscript
    rw [Run.exec_step] at hscript
    split at hscript
    · exact hscript
    · exact hscript
  refine (onEnv_within hudp Env.readEntropy_logs).bind_ok ?_
  rintro id new rfl
  split
  · exact .pure ⟨rfl, fun _ _ => trivial⟩
  · exact .throw ⟨rfl, fun _ _ => trivial⟩

/-- A new socket delivers datagrams of one of the sockets. -/
theorem openUdp_idle :
    Traced (Within sockets) (onEnv Env.openUdp : Run Forwarder ForwardError UdpScript)
      (Idle fun socket => ∀ bytes, .datagram bytes ∈ socket.incoming →
        ∃ script ∈ sockets, .datagram bytes ∈ script.incoming) := by
  intro s hs
  rw [onEnv_exec, Env.openUdp, Run.exec_step]
  cases hudp : s.env.udp with
  | nil =>
    refine ⟨hs, [], (List.append_nil _).symm, rfl, fun socket hsocket bytes hbytes => ?_⟩
    cases hsocket
    cases hbytes
  | cons script rest =>
    have hmem : ∀ script' ∈ script :: rest, script' ∈ sockets := hudp ▸ hs
    refine ⟨fun script' h => hmem script' (List.mem_cons_of_mem script h), [],
      (List.append_nil _).symm, rfl, fun socket hsocket bytes hbytes => ?_⟩
    cases hsocket
    exact ⟨script, hmem script List.mem_cons_self, hbytes⟩

end

/-- An exchange of the message, after the steps in `asked`. -/
structure Exchanges (sockets : List UdpScript) (wire : List UInt8) (asked : List Event)
    (r : Except ForwardError Response) (new : List Event) : Prop where
  asks : Asks wire r (asked ++ Event.steps new)
  received : ∀ response, r = .ok response → Arrived sockets response new

section

variable {wire : List UInt8} {asked : List Event}

/-- An exchange after a program that takes no step. -/
theorem Exchanges.after {α : Type} {m : Run Forwarder ForwardError α} {A : α → Prop}
    {f : α → Run Forwarder ForwardError Response} (hasked : ∀ step ∈ asked, step.Asking wire)
    (hm : Traced (Within sockets) m (Idle A))
    (hf : ∀ a, A a → Traced (Within sockets) (f a) (Exchanges sockets wire asked)) :
    Traced (Within sockets) (m >>= f) (Exchanges sockets wire asked) := by
  refine hm.bind ?_ ?_
  · rintro e new ⟨hidle, -⟩
    refine ⟨?_, fun response h => nomatch h⟩
    rw [hidle, List.append_nil]
    exact .failed hasked
  · rintro a new ⟨hidle, hA⟩
    refine (hf a (hA a rfl)).mono fun r new' h => ⟨?_, fun response hok => ?_⟩
    · rw [Event.steps_append, hidle, List.nil_append]
      exact h.asks
    · exact (h.received response hok).prepend new

/-- An exchange that failed has accepted nothing. -/
theorem Exchanges.failed {e : ForwardError} (hasked : ∀ step ∈ asked, step.Asking wire) :
    Exchanges sockets wire asked (.error e) [] := by
  refine ⟨?_, fun response h => nomatch h⟩
  show Asks wire (.error e) (asked ++ [])
  rw [List.append_nil]
  exact .failed hasked

end

section

variable (address : UpstreamAddress) (exchange : Exchange)

/-- The exchange over TCP, behind the steps of an exchange over UDP. -/
theorem tcpExchange_exchanged {asked : List Event}
    (hasked : ∀ step ∈ asked, step.Asking exchange.sent.wire) :
    Traced (Within sockets) (tcpExchange address exchange)
      (Exchanges sockets exchange.sent.wire asked) := by
  intro s hs
  obtain ⟨-, hudp, new, hlog, hsteps, harrives⟩ := tcpExchange_run address exchange s
  refine ⟨?_, new, hlog, hsteps.asks hasked, fun response hok => .frame (harrives response hok)⟩
  intro script hscript
  rw [hudp] at hscript
  exact hs script hscript

/-- The receive loop, after the query was sent in a datagram. -/
theorem udpLoop_exchanged (turns : Nat) {incoming : List UdpEvent} (invalidResponses : Nat)
    (hincoming : ∀ bytes, .datagram bytes ∈ incoming →
      ∃ script ∈ sockets, .datagram bytes ∈ script.incoming) :
    Traced (Within sockets) (udpLoop address exchange turns incoming invalidResponses)
      (Exchanges sockets exchange.sent.wire [.udpSend address.socket exchange.sent.wire]) := by
  have hasked : ∀ step ∈ [Event.udpSend address.socket exchange.sent.wire],
      step.Asking exchange.sent.wire := by
    intro step hstep
    rw [List.mem_singleton.mp hstep]
    exact .inr (.inr rfl)
  induction turns generalizing incoming invalidResponses with
  | zero =>
    unfold udpLoop
    exact Exchanges.after hasked (checkDeadline_idle _) fun _ _ => .throw (.failed hasked)
  | succ turns ih =>
    unfold udpLoop
    refine Exchanges.after hasked (checkDeadline_idle _) fun _ _ => ?_
    dsimp only
    split
    · exact ih _ hincoming
    · exact .throw (.failed hasked)
    · split
      · exact ih _ fun bytes h => hincoming bytes (List.mem_cons_of_mem _ h)
      · exact .throw (.failed hasked)
    · rename_i bytes rest
      refine Exchanges.after hasked (checkDeadline_idle _) fun _ _ => ?_
      split
      -- With TC set the exchange goes on over TCP.
      · exact tcpExchange_exchanged address exchange hasked
      · split
        -- An accepted datagram is one of those that the socket has for this exchange.
        · rename_i response hvalidate
          obtain ⟨script, hscript, harrived⟩ := hincoming bytes List.mem_cons_self
          obtain ⟨hwhole, hparsed⟩ : response.wire = bytes.take maxMessageLength ∧
              response.packet.Parsed := by
            cases hparse : Packet.parse (bytes.take maxMessageLength) with
            | error e =>
              rw [hparse] at hvalidate
              cases hvalidate
            | ok packet =>
              rw [hparse] at hvalidate
              obtain ⟨rfl, -⟩ := Dns.SentQuery.validateResponse_eq_some_iff.mp hvalidate
              exact ⟨Packet.wire_of_parse hparse, Packet.parsed_of_parse hparse⟩
          refine (record_within _).bind_ok ?_
          rintro _ new rfl
          refine .pure ⟨.answered hasked ⟨_, List.mem_singleton_self _, rfl⟩, fun response' h => ?_⟩
          cases h
          exact .datagram hscript harrived hwhole hparsed (List.mem_singleton_self _)
        -- A datagram that does not match is counted, and the loop goes on until 64 of them.
        · split
          · exact .throw (.failed hasked)
          · exact ih _ fun bytes h => hincoming bytes (List.mem_cons_of_mem _ h)

/-- The exchange over UDP, which falls back to TCP when the answer is truncated. -/
theorem udpExchange_exchanged :
    Traced (Within sockets) (udpExchange address exchange)
      (Exchanges sockets exchange.sent.wire []) := by
  have hnone : ∀ step ∈ ([] : List Event), step.Asking exchange.sent.wire :=
    fun step hstep => nomatch hstep
  refine Exchanges.after hnone openUdp_idle fun socket hsocket => ?_
  refine Exchanges.after hnone (checkCall_idle _) fun _ _ => ?_
  refine Exchanges.after hnone (checkCall_idle _) fun _ _ => ?_
  refine Exchanges.after hnone (checkDeadline_idle _) fun _ _ => ?_
  refine Exchanges.after hnone (checkCall_idle _) fun _ _ => ?_
  refine (record_within _).bind_ok ?_
  rintro _ new rfl
  -- From here on the datagram counts as asked.
  suffices hsent : Traced (Within sockets) _ (Exchanges sockets exchange.sent.wire
      [.udpSend address.socket exchange.sent.wire]) from
    hsent.mono fun r new h => ⟨h.asks, fun response hok => (h.received response hok).prepend _⟩
  have hasked : ∀ step ∈ [Event.udpSend address.socket exchange.sent.wire],
      step.Asking exchange.sent.wire := by
    intro step hstep
    rw [List.mem_singleton.mp hstep]
    exact .inr (.inr rfl)
  refine Exchanges.after hasked (checkCall_idle _) fun _ _ => ?_
  refine Exchanges.after hasked (A := fun _ => True) (.get fun s _ => ⟨rfl, fun _ _ => trivial⟩)
    fun s _ => ?_
  exact udpLoop_exchanged address exchange _ _ hsocket

/-- The exchange over either transport. -/
theorem exchangeOver_exchanged (transport : Transport) :
    Traced (Within sockets) (exchangeOver transport address exchange)
      (Exchanges sockets exchange.sent.wire []) := by
  cases transport with
  | tcp => exact tcpExchange_exchanged address exchange fun step hstep => nomatch hstep
  | udp => exact udpExchange_exchanged address exchange

end

/-! ### One visit -/

/-- A message ready to go out: under a new ID, and parsed again. -/
structure Repeats (wire : List UInt8) (sent : SentQuery) : Prop where
  same : SameMessage wire sent.wire
  parsed : Packet.parse sent.wire = .ok sent.packet

/-- A query that parses from the message under another ID repeats it. -/
theorem Repeats.of_parse {wire : List UInt8} {id : Dns.TransactionId} {sent : SentQuery}
    (h : Packet.parse (setId wire id) = .ok sent.packet) : Repeats wire sent := by
  have hwire : sent.wire = setId wire id := Packet.wire_of_parse h
  have hparsed := Packet.parsed_of_parse h
  have hlong : 2 ≤ wire.length := by
    have hlength : 12 ≤ sent.wire.length := hparsed.length_le.1
    rw [hwire, setId, overwrite, List.length_append, List.length_append, List.length_drop,
      length_wordBytes] at hlength
    simp only [List.take_zero, List.length_nil] at hlength
    omega
  exact ⟨hwire ▸ sameMessage_setId id hlong, hparsed⟩

/-- The query of a retry repeats the rewritten message. -/
theorem retryExchange_idle (exchange : Exchange) (wire : List UInt8) :
    Traced (Within sockets) (retryExchange exchange wire)
      (Idle fun retry => Repeats wire retry.sent) := by
  have hfail : ∀ {e : ForwardError} {new : List Event}, Event.steps new = [] →
      Idle (fun retry : Exchange => Repeats wire retry.sent) (.error e) new :=
    fun hnew => ⟨hnew, fun _ h => nomatch h⟩
  refine (checkDeadline_idle _).bind (fun e new h => hfail h.1) fun _ new h => ?_
  refine nextTransactionId_idle.bind (fun e new' h' => hfail ?_) fun id new' h' => ?_
  · rw [Event.steps_append, h.1, h'.1]
    rfl
  · have hnew : Event.steps (new ++ (new' ++ [])) = [] := by
      rw [List.append_nil, Event.steps_append, h.1, h'.1]
      rfl
    split
    · exact .throw (hfail hnew)
    · rename_i sent hsent
      refine .pure ⟨hnew, fun retry hretry => ?_⟩
      cases hretry
      obtain ⟨hparse, -⟩ := Dns.SentQuery.retry_eq_ok_iff.mp hsent
      exact .of_parse hparse

/-- The rest of a visit whose next message must repeat the given one. A response it returns is
the one it had already, or it was received. -/
structure Told (sockets : List UdpScript) (previous : List UInt8) (known : Option Response)
    (r : Except ForwardError Response) (new : List Event) : Prop where
  transparent : Transparent previous (Event.steps new)
  received : ∀ response, r = .ok response →
    known = some response ∨ Arrived sockets response new

section

variable {previous : List UInt8} {known : Option Response}

/-- An exchange that ends the visit. -/
theorem Exchanges.told {sent : SentQuery} {r : Except ForwardError Response} {new : List Event}
    (h : Exchanges sockets sent.wire [] r new) (hsent : Repeats previous sent) :
    Told sockets previous known r new := by
  refine ⟨?_, fun response hok => .inr (h.received response hok)⟩
  have hasks := h.asks
  rw [List.nil_append] at hasks
  cases r with
  | error e => exact hasks.transparent hsent.same
  | ok response =>
    rw [← List.append_nil (Event.steps new)]
    exact hasks.transparent_append hsent.same hsent.parsed .done

/-- An exchange that the visit goes on from. -/
theorem Exchanges.told_append {sent : SentQuery} {response : Response}
    {r : Except ForwardError Response} {new new' : List Event}
    (h : Exchanges sockets sent.wire [] (.ok response) new) (hsent : Repeats previous sent)
    (hrest : Told sockets (sent.nextMessage response) (some response) r new') :
    Told sockets previous known r (new ++ new') := by
  have hasks := h.asks
  rw [List.nil_append] at hasks
  refine ⟨?_, fun response' hok => .inr ?_⟩
  · rw [Event.steps_append]
    exact hasks.transparent_append hsent.same hsent.parsed hrest.transparent
  · rcases hrest.received response' hok with hknown | hreceived
    · cases hknown
      exact (h.received response rfl).append new'
    · exact hreceived.prepend new

/-- A visit that failed has told nothing. -/
theorem Told.failed {e : ForwardError} : Told sockets previous known (.error e) [] :=
  ⟨.done, fun _ h => nomatch h⟩

/-- A visit goes on behind an operation without steps. -/
theorem Told.after {α : Type} {m : Run Forwarder ForwardError α} {A : α → Prop}
    {f : α → Run Forwarder ForwardError Response} (hm : Traced (Within sockets) m (Idle A))
    (hf : ∀ a, A a → Traced (Within sockets) (f a) (Told sockets previous known)) :
    Traced (Within sockets) (m >>= f) (Told sockets previous known) := by
  refine hm.bind ?_ ?_
  · rintro e new ⟨hidle, -⟩
    refine ⟨?_, fun response h => nomatch h⟩
    rw [hidle]
    exact .done
  · rintro a new ⟨hidle, hA⟩
    refine (hf a (hA a rfl)).mono fun r new' h => ⟨?_, fun response hok => ?_⟩
    · rw [Event.steps_append, hidle]
      exact h.transparent
    · exact (h.received response hok).imp_right fun h => h.prepend new

end

/-- The turn behind BADCOOKIE: the next message, or the response at hand. -/
theorem finishBadcookie_told (address : UpstreamAddress) (exchange : Exchange)
    {response : Response} (hcode : response.responseCode = .badCookie) (transport : Transport) :
    Traced (Within sockets) (finishBadcookie address exchange response transport)
      (Told sockets (exchange.sent.nextMessage response) (some response)) := by
  -- Sending a message once more, over TCP.
  have hagain : ∀ {exchange wire known}, Traced (Within sockets) (do
      let retry ← retryExchange exchange wire
      tcpExchange address retry) (Told sockets wire known) := by
    intro exchange wire known
    refine Told.after (retryExchange_idle exchange wire) fun retry hretry => ?_
    have htcp : Traced (Within sockets) (tcpExchange address retry)
        (Exchanges sockets retry.sent.wire []) :=
      tcpExchange_exchanged address retry fun step hstep => nomatch hstep
    exact htcp.mono fun r new h => h.told hretry
  have hreturn : ∀ {previous}, Told sockets previous (some response) (.ok response) [] :=
    ⟨.done, fun x hx => .inl (congrArg some (Except.ok.inj hx))⟩
  unfold finishBadcookie
  split
  · exact .pure hreturn
  · exact .throw .failed
  · rename_i hcurrent
    rw [Dns.SentQuery.nextMessage, if_pos hcode, hcurrent]
    split
    · exact .pure hreturn
    · exact hagain
  · rename_i htcp
    rw [Dns.SentQuery.nextMessage, if_pos hcode, htcp]
    split
    · exact .pure hreturn
    · exact hagain
  · rename_i wire hrewrite
    rw [Dns.SentQuery.nextMessage, if_pos hcode, hrewrite]
    refine Told.after (retryExchange_idle exchange wire) fun retry hretry => ?_
    refine (exchangeOver_exchanged address retry transport).bind (fun e new h => h.told hretry)
      fun retried new h => ?_
    split
    · refine .pure ?_
      rw [List.append_nil]
      exact h.told hretry
    · -- Still BADCOOKIE over UDP: once more over TCP, with the newest cookie.
      rename_i hagain'
      have hcode' : retried.responseCode = .badCookie := not_not.mp (not_or.mp hagain').1
      suffices hthird : Traced (Within sockets) _
          (Told sockets (retry.sent.nextMessage retried) (some retried)) from
        hthird.mono fun r new' hrest => h.told_append hretry hrest
      rw [Dns.SentQuery.nextMessage, if_pos hcode']
      cases hnext : retry.sent.serverCookieRetry retried with
      | absent => exact .throw .failed
      | discard => exact .throw .failed
      | current => exact hagain
      | tcp => exact hagain
      | rewrite wire' => exact hagain

/-- A visit, from the message of the client. -/
theorem visit_told (address : UpstreamAddress) (exchange : Exchange) (transport : Transport)
    {wire : List UInt8} (hsent : Repeats wire exchange.sent) :
    Traced (Within sockets) (visit address exchange transport) (Told sockets wire none) := by
  refine (exchangeOver_exchanged address exchange transport).bind (fun e new h => h.told hsent)
    fun response new h => ?_
  split
  · rename_i hcode
    exact (finishBadcookie_told address exchange hcode transport).mono fun r new' hrest =>
      h.told_append hsent hrest
  · refine .pure ?_
    rw [List.append_nil]
    exact h.told hsent

/-! ### The walk over a group -/

variable {sockets : List UdpScript}

/-- A walk for the message. A response it returns is the one it had already, or it was
received. -/
structure Converses (sockets : List UdpScript) (wire : List UInt8) (known : Option Response)
    (r : Except ForwardError Response) (new : List Event) : Prop where
  conversation : Conversation wire (Event.steps new)
  received : ∀ response, r = .ok response →
    known = some response ∨ Arrived sockets response new

section

variable {wire : List UInt8} {known known' : Option Response}
  {r result : Except ForwardError Response} {pre body new : List Event}

/-- A run without steps returns what it knew. -/
theorem Converses.idle (hnew : Event.steps new = []) (hr : ∀ response, r = .ok response →
    known = some response) : Converses sockets wire known r new := by
  refine ⟨?_, fun response hok => .inl (hr response hok)⟩
  rw [hnew]
  exact .ends fun step hstep => nomatch hstep

/-- Events without steps may come before. -/
theorem Converses.prepend (h : Converses sockets wire known r new)
    (hpre : Event.steps pre = []) : Converses sockets wire known r (pre ++ new) := by
  refine ⟨?_, fun response hok => (h.received response hok).imp_right fun h => h.prepend pre⟩
  rw [Event.steps_append, hpre]
  exact h.conversation

/-- One turn of a walk, and the turns behind it. -/
theorem Converses.turn {a : UpstreamAddress} (hpre : Event.steps pre = [.attempt a])
    (hvisit : Told sockets wire none result body) (hnext : Converses sockets wire known' r new)
    (hknown : known' = known ∨ ∃ response, known' = some response ∧ result = .ok response) :
    Converses sockets wire known r
      (pre ++ ([.visit a] ++ (body ++ ([.outcome a result] ++ new)))) := by
  refine ⟨?_, fun response hok => ?_⟩
  · rw [Event.steps_append, Event.steps_append, Event.steps_append, Event.steps_append, hpre]
    refine .visit (fun step hstep => ?_) hvisit.transparent hnext.conversation
    exact ⟨a, List.mem_singleton.mp hstep⟩
  · rcases hnext.received response hok with hold | hreceived
    · rcases hknown with rfl | ⟨response', rfl, hresult⟩
      · exact .inl hold
      · -- The response is the one this visit returned.
        cases hold
        rcases hvisit.received response hresult with hnone | hreceived
        · cases hnone
        · exact .inr ((((hreceived.append _).prepend _).prepend _))
    · exact .inr ((((hreceived.prepend _).prepend _).prepend _).prepend _)

end

section

variable {q : Query} (hq : q.packet.Parsed) (request : Deadline)

include hq

/-- The start of an attempt is one step, and its query repeats the message of the client. -/
theorem startAttempt_steps (address : UpstreamAddress) :
    Traced (Within sockets) (startAttempt q address request) fun r new =>
      Event.steps new = [.attempt address] ∧
        ∀ exchange, r = .ok exchange → Repeats q.packet.wire exchange.sent := by
  refine (record_within _).bind_ok ?_
  rintro _ _ rfl
  have hcapped : Traced (Within sockets)
      (onEnv (request.capped attemptTimeout) : Run Forwarder ForwardError Deadline)
      fun r new => ∃ d, r = .ok d ∧ Event.steps new = [] := by
    intro s hs
    rw [onEnv_exec, Deadline.capped, Run.exec_bind, Env.now_exec]
    exact ⟨hs, [.now (s.env.clock.head?.map Reading.now)], rfl, _, rfl, rfl⟩
  refine hcapped.bind_ok fun deadline new hnew => ?_
  have hsteps : ∀ {more}, Event.steps more = [] →
      Event.steps ([.attempt address] ++ (new ++ more)) = [.attempt address] := by
    intro more hmore
    rw [Event.steps_append, Event.steps_append, hnew, hmore]
    rfl
  refine (checkDeadline_idle _).bind (fun e new' h => ⟨hsteps h.1, fun _ h => nomatch h⟩)
    fun _ new' h => ?_
  refine nextTransactionId_idle.bind (fun e new'' h' => ⟨hsteps ?_, fun _ h => nomatch h⟩)
    fun id new'' h' => ?_
  · rw [Event.steps_append, h.1, h'.1]
    rfl
  · refine .pure ⟨hsteps ?_, fun exchange hexchange => ?_⟩
    · rw [Event.steps_append, Event.steps_append, h.1, h'.1]
      rfl
    · cases hexchange
      exact .of_parse (hq.renumber id)

/-- The walk of `forward`. -/
theorem forwardLoop_converses (transport : Transport) (servers : List UpstreamAddress)
    (last : ForwardError) (relayed : Option Response) :
    Traced (Within sockets) (forwardLoop q transport request servers last relayed)
      (Converses sockets q.packet.wire relayed) := by
  induction servers generalizing last relayed with
  -- Behind the last server: the last response that was passed over, or the last error.
  | nil =>
    refine (checkDeadline_idle request).bind (fun e new h => .idle h.1 fun _ h => nomatch h)
      fun _ new h => ?_
    split
    · rename_i response
      refine .pure (.idle ?_ fun response' hok => congrArg some (Except.ok.inj hok))
      rw [List.append_nil]
      exact h.1
    · refine .throw (.idle ?_ fun _ h => nomatch h)
      rw [List.append_nil]
      exact h.1
  -- The attempt at `a`, and then the servers behind it.
  | cons a rest ih =>
    refine (startAttempt_steps hq request a).bind (fun e pre hstart => ?_)
      fun exchange pre hstart => ?_
    · refine ⟨?_, fun _ h => nomatch h⟩
      rw [hstart.1]
      -- The exchange with this server is over, and its message is in the log.
      exact .ends fun step hstep => ⟨a, List.mem_singleton.mp hstep⟩
    · refine (record_within _).bind_ok ?_
      rintro _ _ rfl
      refine Traced.bind_ok (G := Told sockets q.packet.wire none) ((visit_told a exchange
        transport (hstart.2 exchange rfl)).attempt fun r body h => ⟨r, rfl, h⟩)
        fun result body hvisit => ?_
      refine (record_within _).bind_ok ?_
      rintro _ _ rfl
      split
      · refine .throw (Converses.turn hstart.1 hvisit (.idle rfl fun _ h => nomatch h) (.inl rfl))
      · exact (ih _ relayed).mono fun r new h => h.turn hstart.1 hvisit (.inl rfl)
      · rename_i response
        refine (checkDeadline_idle request).bind (fun e new h => ?_) fun _ new h => ?_
        · exact .turn hstart.1 hvisit (.idle h.1 fun _ h => nomatch h) (.inl rfl)
        · dsimp only
          -- Either the response is returned, or the next server is asked and this one is kept in
          -- mind.
          split
          · refine .pure (.turn hstart.1 hvisit ?_ (.inr ⟨response, rfl, rfl⟩))
            refine .idle ?_ fun response' hok => congrArg some (Except.ok.inj hok)
            rw [List.append_nil]
            exact h.1
          · exact (ih _ (some response)).mono fun r new' hnext =>
              .turn hstart.1 hvisit (hnext.prepend h.1) (.inr ⟨response, rfl, rfl⟩)

end

end Forwarder

/-! ### Replies of the handler -/

namespace RequestHandler

open Forwarder (Within Idle)

/-- The replies that the handler makes itself for a forwarded query, and the one that it takes
from a response. -/
structure Relayed (sockets : List UdpScript) (routing : RoutingTable) (wire : List UInt8)
    (transport : Transport) (events : List Event) (reply : List UInt8) : Prop where
  relayed : ∃ q group outcome, Forwards routing wire q group ∧ Relays q transport outcome reply ∧
    ∀ response, outcome = .ok response → Arrived sockets response events

/-- A run of the handler: its walk, and what its reply is. -/
structure Answers (sockets : List UdpScript) (routing : RoutingTable) (wire : List UInt8)
    (transport : Transport) (r : Except NoReply (List UInt8)) (new : List Event) : Prop where
  conversation : Conversation wire (Event.steps new)
  reply : ∀ reply, r = .ok reply →
    LocalReply routing wire reply ∨ Relayed sockets routing wire transport new reply

section

variable {sockets : List UdpScript} {routing : RoutingTable} {wire : List UInt8}
  {transport : Transport} {request : Deadline} {r r' : Except NoReply (List UInt8)}
  {new more : List Event}

/-- A relayed reply is relayed when more came after. -/
theorem Relayed.append {reply : List UInt8} (h : Relayed sockets routing wire transport new reply)
    (more : List Event) : Relayed sockets routing wire transport (new ++ more) reply := by
  obtain ⟨q, group, outcome, hchosen, hrelays, hreceived⟩ := h.relayed
  exact ⟨q, group, outcome, hchosen, hrelays, fun response hok =>
    (hreceived response hok).append more⟩

/-- A relayed reply is relayed when more came before. -/
theorem Relayed.prepend {reply : List UInt8} (h : Relayed sockets routing wire transport new reply)
    (more : List Event) : Relayed sockets routing wire transport (more ++ new) reply := by
  obtain ⟨q, group, outcome, hchosen, hrelays, hreceived⟩ := h.relayed
  exact ⟨q, group, outcome, hchosen, hrelays, fun response hok =>
    (hreceived response hok).prepend more⟩

/-- Idle events behind a run, after which a reply may be dropped. -/
theorem Answers.append (h : Answers sockets routing wire transport r new)
    (hmore : Event.steps more = []) (hr : ∀ reply, r' = .ok reply → r = .ok reply) :
    Answers sockets routing wire transport r' (new ++ more) := by
  refine ⟨?_, fun reply hok => (h.reply reply (hr reply hok)).imp_right fun h => h.append more⟩
  rw [Event.steps_append, hmore, List.append_nil]
  exact h.conversation

/-- Events without steps may come before an answer. -/
theorem Answers.prepend (h : Answers sockets routing wire transport r new)
    (hmore : Event.steps more = []) : Answers sockets routing wire transport r (more ++ new) := by
  refine ⟨?_, fun reply hok => (h.reply reply hok).imp_right fun h => h.prepend more⟩
  rw [Event.steps_append, hmore]
  exact h.conversation

/-- A reply made without asking a server, or none. -/
theorem Answers.alone (hnew : Event.steps new = [])
    (hr : ∀ reply, r = .ok reply → LocalReply routing wire reply) :
    Answers sockets routing wire transport r new := by
  refine ⟨?_, fun reply hok => .inl (hr reply hok)⟩
  rw [hnew]
  exact .ends fun step hstep => nomatch hstep

/-- The deadline check of a request is no step. -/
theorem checkDeadline_idle :
    Traced (Within sockets) (checkDeadline request) (Idle fun _ => True) :=
  (Forwarder.checkDeadline_idle request).mapError (fun _ _ h => ⟨h.1, fun _ _ => trivial⟩)
    fun _ _ h => ⟨h.1, fun _ _ => trivial⟩

/-- A reply of the handler itself takes no step. -/
theorem orSilent_answers {reply : Option (List UInt8)}
    (h : ∀ w, reply = some w → LocalReply routing wire w) :
    Traced (Within sockets) (orSilent reply) (Answers sockets routing wire transport) := by
  cases reply with
  | none => exact .throw (.alone rfl fun w hw => nomatch hw)
  | some w => exact .pure (.alone rfl fun w' hw => h w' (congrArg some (Except.ok.inj hw)))

/-- The reply that `forward` leads to, or the reply to its failure. -/
theorem relay_answers {q : Query} {group : UpstreamGroup} (h : Forwards routing wire q group) :
    Traced (Within sockets) (relay q group transport request)
      (Answers sockets routing wire transport) := by
  have hwire : q.packet.wire = wire := Packet.wire_of_parse h.parse
  refine Traced.bind_ok ((Forwarder.forwardLoop_converses (Packet.parsed_of_parse h.parse) request
    transport group.servers .timeout none).attempt fun r body h => ⟨r, rfl, h⟩)
    fun outcome body hwalk => ?_
  -- What a reply would be, before the last deadline check.
  have hanswers : ∀ r, (∀ w, r = .ok w → Relays q transport outcome w) →
      Answers sockets routing wire transport r body := by
    intro r hr
    refine ⟨hwire ▸ hwalk.conversation, fun reply hok =>
      .inr ⟨q, group, outcome, h, hr reply hok, ?_⟩⟩
    intro response houtcome
    rcases hwalk.received response houtcome with hnone | hreceived
    · cases hnone
    · exact hreceived
  -- The check, and the reply behind it.
  have hchecked : ∀ {m : Run Forwarder NoReply (List UInt8)},
      Traced (Within sockets) m
        (fun r new => new = [] ∧ ∀ w, r = .ok w → Relays q transport outcome w) →
      Traced (Within sockets) (do checkDeadline request; m) fun r new =>
        Answers sockets routing wire transport r (body ++ new) := by
    intro m hm
    refine checkDeadline_idle.bind (fun e post hpost => ?_) fun _ post hpost => ?_
    · exact (hanswers (.error e) fun w hw => nomatch hw).append hpost.1 fun reply hok => hok
    · refine hm.mono ?_
      rintro r new ⟨rfl, hr⟩
      rw [List.append_nil]
      exact (hanswers r hr).append hpost.1 fun reply hok => hok
  split
  · refine .throw ?_
    rw [List.append_nil]
    exact hanswers _ fun w hw => nomatch hw
  · refine hchecked ?_
    cases hmade : q.errorReply .serverFailure with
    | none => exact .throw ⟨rfl, fun w hw => nomatch hw⟩
    | some w =>
      refine .pure ⟨rfl, fun w' hw => ?_⟩
      cases hw
      exact .failed hmade
  · refine hchecked ?_
    split
    · refine .pure ⟨rfl, fun w hw => ?_⟩
      cases hw
      exact .truncated ‹_›
    · refine .pure ⟨rfl, fun w hw => ?_⟩
      cases hw
      exact .relayed ‹_›

/-- The reply to any message: one of the handler itself, or a relayed one. -/
theorem respondInner_answers :
    Traced (Within sockets) (respondInner routing wire transport request)
      (Answers sockets routing wire transport) := by
  have hsilent : Traced (Within sockets) (throw .silent : Run Forwarder NoReply (List UInt8))
      (Answers sockets routing wire transport) := .throw (.alone rfl fun w hw => nomatch hw)
  refine checkDeadline_idle.bind (fun e new h => .alone h.1 fun w hw => nomatch hw)
    fun _ pre hpre => ?_
  suffices hrest : Traced (Within sockets) _ (Answers sockets routing wire transport) from
    hrest.mono fun r new h => h.prepend hpre.1
  -- The branches of the source, in its order: only the last two contact a server.
  split
  · exact hsilent
  · split
    · exact hsilent
    · split
      · rename_i failure hparse
        exact orSilent_answers fun w hw => .malformed hparse hw
      · rename_i packet hparse
        have hparse := Packet.parseForReply_eq_ok_iff.mp hparse
        split
        · rename_i code hreject
          exact orSilent_answers fun w hw => .rejected hparse hreject hw
        · exact hsilent
        · rename_i q hforward
          obtain ⟨rfl, -⟩ := Packet.validateQuery_eq_forward_iff.mp hforward
          unfold answer
          split
          · rename_i record hselect
            exact orSilent_answers fun w hw => .answered hparse hforward hselect hw
          · rename_i hselect
            exact orSilent_answers fun w hw => .unmatched hparse hforward hselect hw
          · rename_i group hselect
            exact relay_answers ⟨hparse, hforward, .inl hselect⟩
          · rename_i route hselect
            exact relay_answers ⟨hparse, hforward, .inr ⟨route, hselect, rfl⟩⟩

end

/-- The replies that the handler makes itself: without asking a server, after every server
failed, or in place of a response that is too large for the client. -/
inductive MadeLocally (routing : RoutingTable) (wire : List UInt8) (transport : Transport) :
    List UInt8 → Prop
  | alone {reply : List UInt8} (made : LocalReply routing wire reply) :
      MadeLocally routing wire transport (finished routing reply)
  | failed {q : Query} {group : UpstreamGroup} {reply : List UInt8}
      (chosen : Forwards routing wire q group) (made : q.errorReply .serverFailure = some reply) :
      MadeLocally routing wire transport reply
  | truncated {q : Query} {group : UpstreamGroup} {response : Response}
      (chosen : Forwards routing wire q group)
      (large : transport = .udp ∧ response.wire.length > q.udpLimit) :
      MadeLocally routing wire transport (q.truncatedReply response)

/-- Messages pass through the handler unchanged. In every visit the message sent is the client's
until a BADCOOKIE rewrites its cookie, and then the rewritten one, up to the ID. A reply that the
handler does not make itself is a received response, up to the ID, which is the client's. -/
theorem respond_transparent (routing : RoutingTable) (wire : List UInt8) (transport : Transport)
    (request : Deadline) (s : Forwarder) :
    ∃ new, ((respond routing wire transport request).exec s).2.env.log = s.env.log ++ new ∧
      Conversation wire (Event.steps new) ∧
      ∀ reply, ((respond routing wire transport request).exec s).1 = .ok reply →
        MadeLocally routing wire transport reply ∨
          ∃ response, Arrived s.env.udp response new ∧ SameMessage response.wire reply ∧
            reply.take 2 = wire.take 2 := by
  -- The look at the clock behind the reply adds no step.
  have hrun : Traced (Within s.env.udp) (respond routing wire transport request) fun r new =>
      ∃ inner, Answers s.env.udp routing wire transport inner new ∧
        ∀ w, r = .ok w → ∃ reply, inner = .ok reply ∧ w = finished routing reply := by
    refine respondInner_answers.bind (fun e new h => ⟨_, h, fun w hw => nomatch hw⟩)
      fun reply new h => ?_
    refine checkDeadline_idle.bind (fun e post hpost => ?_) fun _ post hpost => ?_
    · exact ⟨.ok reply, h.append hpost.1 fun w hw => hw, fun w hw => nomatch hw⟩
    · refine .pure ⟨.ok reply, ?_, fun w hw => ⟨reply, rfl, (Except.ok.inj hw).symm⟩⟩
      rw [List.append_nil]
      exact h.append hpost.1 fun w hw => hw
  obtain ⟨-, new, hlog, inner, hanswers, hfinished⟩ := hrun s fun script h => h
  refine ⟨new, hlog, hanswers.conversation, fun w hw => ?_⟩
  obtain ⟨reply, rfl, rfl⟩ := hfinished w hw
  rcases hanswers.reply reply rfl with hlocal | ⟨q, group, outcome, hchosen, hrelays, hreceived⟩
  · exact .inl (.alone hlocal)
  · rw [finished, if_pos hchosen.hasUpstreams]
    cases hrelays with
    -- Only a relayed reply has the bytes of a response.
    | failed made => exact .inl (.failed hchosen made)
    | truncated large => exact .inl (.truncated hchosen large)
    | @relayed response fits =>
      have hreceived := hreceived response rfl
      have hlong : 12 ≤ response.wire.length := hreceived.parsed.length_le.1
      refine .inr ⟨response, hreceived, sameMessage_setId q.id (by omega), ?_⟩
      have hid := (Packet.parsed_of_parse hchosen.parse).setId_self
      rw [Packet.wire_of_parse hchosen.parse] at hid
      rw [← hid]
      rfl

end RequestHandler

end Sederial
