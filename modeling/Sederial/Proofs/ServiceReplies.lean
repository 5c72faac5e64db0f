import Sederial.Proofs.ServiceUpstreams

/-!
# `Sederial.Proofs.ServiceReplies`: where the replies come from

A split-DNS forwarder has to keep names apart: what a client is told about a name comes from the
rule for this name. `Isolation` and `CookiePolicy` say so of one request. Here it is a fact about
every reply that a running service gives, over UDP and over TCP, whatever its handlers did before.

`RequestHandler.Requests` cuts the life of a handler into its requests. Request number `i` has a
message, a reply and a part of the record, which is what this call of `respond` added to it. By
`replies_origin` all events of part `i` concern the group that the table selects for message `i`,
and reply `i` has its origin in part `i`. So no reply is left over from another request, none
relays what another group sent, and nobody else is asked on the way.
-/

set_option autoImplicit false

namespace Sederial

open Sederial.Lib
open RequestHandler (Isolated Requests)

namespace Service

variable {s : Service}

/-- Every reply of the service has its origin in its own request, in any interleaving. A worker for
UDP has handled some of its jobs in order and sent to their peers what its handler replied; a worker
for TCP has called its handler with the requests of its sessions in order. Whichever it is, the
handler went from the state in which it was created to its state now by these requests, and each of
them is isolated in its own part of the record: the part concerns the group that the table selects
for the question, or nobody. The handler made the reply as the table selects, or it relays a
response that was accepted for this question in this part from a server of the selected group. -/
theorem replies_origin (server : Server) (stop : Bool)
    (h : Reaches (Service.step server) (· = start stop) s) :
    (∀ index w, s.udp.states[index]? = some w →
      ∃ outcomes parts, outcomes.map Prod.fst <+: s.udp.pool.handledBy index ∧
        w.sent.map (fun sent => (sent.peer, sent.wire)) = Datagram.replies outcomes ∧
        Requests server.routing .udp ⟨none, server.udpEnv index⟩ (Datagram.calls outcomes) parts
          w.handler ∧
        List.Forall₂ (fun call part => Isolated server.routing .udp call.1 call.2 part)
          (Datagram.calls outcomes) parts) ∧
    ∀ index w, s.tcp.states[index]? = some w →
      ∃ parts, Requests server.routing .tcp ⟨none, server.tcpEnv index⟩
          (TcpSession.calls w.sessions) parts w.handler ∧
        List.Forall₂ (fun call part => Isolated server.routing .tcp call.1 call.2 part)
          (TcpSession.calls w.sessions) parts := by
  obtain ⟨hudp, htcp⟩ := reaches_contacting h
  constructor
  · intro index w hw
    obtain ⟨outcomes, hprefix, hthrough⟩ := hudp index w hw
    obtain ⟨parts, hrequests, hisolated⟩ := hthrough.contacting.requests
    exact ⟨outcomes, parts, hprefix, hthrough.sent, hrequests, hisolated⟩
  · exact fun index w hw => (htcp index w hw).requests

/-- A query is challenged and answered, and the answer goes to the client. -/
theorem replies_origin_plainQuery : ∃ s w outcomes parts,
    runActions (Service.step (challengedServer oneTable)) (start false) forwardRun = some s ∧
      s.udp.states[0]? = some w ∧ w.sent.length = 1 ∧
      w.sent.map (fun sent => (sent.peer, sent.wire)) = Datagram.replies outcomes ∧
      List.Forall₂ (fun call part => Isolated oneTable .udp call.1 call.2 part)
        (Datagram.calls outcomes) parts := by
  have hcount : ((runActions (Service.step (challengedServer oneTable)) (start false)
      forwardRun).bind fun s => s.udp.states[0]?.map fun w => w.sent.length) = some 1 := by
    decide +kernel
  obtain ⟨s, hs, hrest⟩ := Option.bind_eq_some_iff.mp hcount
  obtain ⟨w, hw, hlength⟩ := Option.map_eq_some_iff.mp hrest
  obtain ⟨outcomes, parts, -, hsent, -, hisolated⟩ :=
    (replies_origin (challengedServer oneTable) false (Reaches.of_run (.start rfl) hs)).1 0 w hw
  exact ⟨s, w, outcomes, parts, hs, hw, hlength, hsent, hisolated⟩

end Service

end Sederial
