import Sederial.Proofs.ServiceIntake
import Sederial.Proofs.UdpLimit

/-!
# `Sederial.Proofs.UdpReplies`: replies go where the datagrams came from

The whole way of a datagram, from `recv_from` to `send_to`, in every interleaving of the service.
`AnswersJob` relates a job with the reply that a worker sent for it. `UdpWorker.runs_answers` is
about one worker, which answers some of its jobs in order. The workers run side by side, so
`reaches_answers` is about multisets: the replies on the client socket answer jobs that the queue
accepted, each at most once.

Two facts from elsewhere join in: the queue accepts a datagram at most once (`Ledger.Sound`), and
what it accepted is what came in (`UdpIntake`). Together they bound what the service sends to any
peer by what that peer sent to it.
-/

set_option autoImplicit false

namespace Sederial

open Sederial.Lib

/-- A reply to a job, made by a handler in a state that it can be in. -/
structure AnswersJob (routing : RoutingTable) (ticket : Ticket Datagram) (sent : Sent) : Prop where
  peer : sent.peer = ticket.job.peer
  reply : ∃ handler, RequestHandler.Reachable routing handler ∧
    ((RequestHandler.respond routing ticket.job.wire .udp ticket.job.deadline).exec handler).1 =
      .ok sent.wire

namespace UdpWorker

variable {routing : RoutingTable} {w : UdpWorker} {job : Datagram}

/-- A call of `handle` sends the reply of the handler, or nothing if there is none. -/
theorem handle_cases (routing : RoutingTable) (job : Datagram) (w : UdpWorker) :
    (w.handle routing job).handler =
        ((RequestHandler.respond routing job.wire .udp job.deadline).exec w.handler).2 ∧
      ((w.handle routing job).sent = w.sent ∧
          ((RequestHandler.respond routing job.wire .udp job.deadline).exec
            w.handler).1.toOption = none ∨
        ∃ sent : Sent, (w.handle routing job).sent = w.sent ++ [sent] ∧ sent.peer = job.peer ∧
          ((RequestHandler.respond routing job.wire .udp job.deadline).exec w.handler).1 =
            .ok sent.wire) := by
  unfold handle
  rcases hexec : (RequestHandler.respond routing job.wire .udp job.deadline).exec w.handler with
    ⟨_ | wire, handler⟩
  · exact ⟨rfl, .inl ⟨rfl, rfl⟩⟩
  · exact ⟨rfl, .inr ⟨⟨job.peer, wire, _⟩, rfl, rfl, rfl⟩⟩

/-- A worker answers some of its jobs, in order. -/
theorem runs_answers {env : Env} {answers : List (Option ErrorKind)}
    {done : List (Ticket Datagram)}
    (h : (udpWorker routing).Runs ⟨⟨none, env⟩, answers, []⟩ done w) :
    RequestHandler.Reachable routing w.handler ∧ ∃ answered, answered.Sublist done ∧
      List.Forall₂ (AnswersJob routing) answered w.sent := by
  induction h with
  | created => exact ⟨.fresh env, [], List.nil_sublist _, .nil⟩
  | maintained before ih =>
    obtain ⟨hreachable, hanswered⟩ := ih
    exact ⟨hreachable.expireIdle, hanswered⟩
  | @handled tickets w before ticket ih =>
    obtain ⟨hreachable, answered, hsublist, hrel⟩ := ih
    obtain ⟨hhandler, hsent⟩ := handle_cases routing ticket.job w
    refine ⟨?_, ?_⟩
    · show RequestHandler.Reachable routing (w.handle routing ticket.job).handler
      rw [hhandler]
      exact hreachable.respond ..
    · rcases hsent with ⟨hsilent, -⟩ | ⟨sent, hsent, hpeer, hreply⟩
      · refine ⟨answered, hsublist.trans (List.sublist_append_left ..), ?_⟩
        show List.Forall₂ _ _ (w.handle routing ticket.job).sent
        rw [hsilent]
        exact hrel
      · refine ⟨answered ++ [ticket], hsublist.append (.refl _), ?_⟩
        show List.Forall₂ _ _ (w.handle routing ticket.job).sent
        rw [hsent]
        exact List.rel_append hrel (.cons ⟨hpeer, w.handler, hreachable, hreply⟩ .nil)

end UdpWorker

/-- Every reply on the socket, by whatever worker. -/
def Crew.sent (s : Crew UdpWorker Datagram) : Multiset Sent :=
  (s.states.map fun w => (w.sent : Multiset Sent)).sum

namespace Service

variable {server : Server} {s : Service} {stop : Bool}

/-- The replies answer jobs that were accepted, each at most once. -/
theorem reaches_answers (h : Reaches (Service.step server) (· = start stop) s) :
    ∃ answered ≤ (s.udp.pool.ledger.accepted : Multiset (Ticket Datagram)),
      (answered.map Ticket.number).Nodup ∧
        Multiset.Rel (AnswersJob server.routing) answered s.udp.sent := by
  refine Crew.exists_made (reaches_udp h) fun index done w hruns => ?_
  obtain ⟨-, answered, hsublist, hrel⟩ := UdpWorker.runs_answers hruns
  exact ⟨answered, Multiset.coe_le.mpr hsublist.subperm, rel_coe_of_forall₂ hrel⟩

end Service

/-- A UDP reply fits the limit of its request. -/
theorem RequestHandler.respond_length_le {routing : RoutingTable} {wire reply : List UInt8}
    {request : Deadline} {handler : Forwarder}
    (h : ((respond routing wire .udp request).exec handler).1 = .ok reply) :
    reply.length ≤ replyLimit wire := by
  obtain ⟨-, new, -, inner, hlog, hreply⟩ := respond_logs (T := fun _ _ => True) routing wire .udp
    request (fun _ => trivial) handler fun _ _ => trivial
  obtain ⟨made, rfl, rfl⟩ := hreply reply h
  rcases hlog.generated_or_fromUpstream with hgenerated |
    ⟨q, group, response, hchosen, -, hanswered, hrelays⟩
  · obtain ⟨p, -, -, hlength⟩ := hgenerated.small
    exact hlength.trans (le_replyLimit wire)
  · obtain ⟨p, -, hlength, -⟩ := hrelays.fits hchosen hanswered
    exact hlength rfl

/-- What a client can rely on when a reply arrives. -/
structure RepliedDatagram (datagram : Datagram) (sent : Sent) : Prop where
  peer : sent.peer = datagram.peer
  /-- It is a response to the message of the client, with its ID and opcode. -/
  repliesTo : ∃ header p, Dns.RepliesTo datagram.wire header sent.wire p
  fits : sent.wire.length ≤ RequestHandler.replyLimit datagram.wire

/-- A job's answer replies to its datagram. -/
theorem AnswersJob.replied {routing : RoutingTable} {ticket : Ticket Datagram} {sent : Sent}
    (h : AnswersJob routing ticket sent) : RepliedDatagram ticket.job sent := by
  obtain ⟨hpeer, handler, -, hreply⟩ := h
  exact ⟨hpeer, RequestHandler.respond_repliesTo hreply, RequestHandler.respond_length_le hreply⟩

namespace Service

variable {s : Service}

/-- Whatever the threads of the service do, its UDP replies answer datagrams that the queue
accepted, each of them at most once. A reply goes to the peer of its datagram, is a DNS response to
it and keeps its size limit. So no peer gets more replies than it sent datagrams. -/
theorem udp_replies (server : Server) (stop : Bool)
    (h : Reaches (Service.step server) (· = start stop) s) :
    (∃ answered : Multiset (Ticket Datagram),
      answered ≤ s.udp.pool.ledger.accepted ∧ (answered.map Ticket.number).Nodup ∧
        Multiset.Rel (fun ticket sent => RepliedDatagram ticket.job sent) answered s.udp.sent) ∧
      s.udp.sent.map Sent.peer ≤ (s.received.map Datagram.peer : Multiset SocketAddr) := by
  obtain ⟨answered, hle, hnumbered, hrel⟩ := reaches_answers h
  have hsublist := (reaches_intake h).1.accepted_sublist
  refine ⟨⟨answered, hle, hnumbered, hrel.mono fun _ _ _ _ h => h.replied⟩, ?_⟩
  rw [map_eq_of_rel hrel fun _ _ h => h.peer]
  have hpeers := (hsublist.map Datagram.peer).subperm
  rw [List.map_map] at hpeers
  exact (Multiset.map_le_map hle).trans (Multiset.coe_le.mpr hpeers)

/-- A datagram comes in and goes to a worker, which answers it. -/
def replyRun : List ServiceAction :=
  boot ++ [.main .go, .main (.receive (.ok (Dns.rootQuery.wire, someClient)) 0), .main .go,
    .main .go] ++ List.replicate 6 (.udpWorker 0 .run)

/-- The run replies once, to the peer that asked. -/
theorem udp_replies_rootQuery : ∃ s, runActions (Service.step idleServer) (start false) replyRun =
      some s ∧ s.udp.sent.card = 1 ∧
        s.udp.sent.map Sent.peer ≤ (s.received.map Datagram.peer : Multiset SocketAddr) := by
  have hcount : (runActions (Service.step idleServer) (start false) replyRun).map (fun s =>
      s.udp.sent.card) = some 1 := by
    decide +kernel
  obtain ⟨s, hs, heq⟩ := Option.map_eq_some_iff.mp hcount
  exact ⟨s, hs, heq, (udp_replies idleServer false (Reaches.of_run (.start rfl) hs)).2⟩

end Service

end Sederial
