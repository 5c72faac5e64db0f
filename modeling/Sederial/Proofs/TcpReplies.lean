import Sederial.Lib.Checks
import Sederial.Proofs.ServiceIntake
import Sederial.Proofs.SessionTrace

/-!
# `Sederial.Proofs.TcpReplies`: one session for a connection, in order

The whole way of a connection, from `accept` to the end of its session, in every interleaving of the
service. A worker serves its connections one after the other, each in one session
(`TcpWorker.runs_serves`). A session is in order whatever the client, the clock and the signal
handler do (`Serving.Ordered`), and what the handler replied is a DNS response to the request.

`TcpWorker.Conducted` follows the handler of a worker from the state in which it was created to its
state now. The calls in the traces of the sessions are the calls that this handler had, in their
order, so no reply in a trace was made by anything else.

`Arrival.Enqueued` joins in from the intake: the budget of the first frame of a session starts when
the connection is enqueued, so the time in the queue counts.
-/

set_option autoImplicit false

namespace Sederial

open Sederial.Lib

/-- A session on the connection of this job. -/
structure SessionOf (routing : RoutingTable) (ticket : Ticket Connection) (session : TcpSession) :
    Prop where
  client : session.client = ticket.job
  ordered : Serving.Ordered (RequestHandler.handler routing) session.result session.trace

namespace TcpWorker

variable {routing : RoutingTable} {w : TcpWorker}

/-- A call of `handle` is one session. -/
theorem handle_serves (routing : RoutingTable) (ticket : Ticket Connection) (w : TcpWorker) :
    ∃ session, (w.handle routing ticket.job).sessions = w.sessions ++ [session] ∧
      SessionOf routing ticket session := by
  refine ⟨_, rfl, rfl, ?_⟩
  exact serveTcp_ordered (RequestHandler.handler routing) ticket.job (w.worlds.headD .ended).env
    w.handler

/-- A worker serves its connections, one session each, in order. -/
theorem runs_serves {env : Env} {worlds : List SessionWorld} {done : List (Ticket Connection)}
    (h : (tcpWorker routing).Runs ⟨⟨none, env⟩, worlds, []⟩ done w) :
    List.Forall₂ (SessionOf routing) done w.sessions := by
  induction h with
  | created => exact .nil
  | maintained before ih => exact ih
  | @handled tickets w before ticket ih =>
    obtain ⟨session, hsessions, hserves⟩ := handle_serves routing ticket w
    show List.Forall₂ _ _ (w.handle routing ticket.job).sessions
    rw [hsessions]
    exact List.rel_append ih (.cons hserves .nil)

/-- The sessions of a worker, with its handler from one state to another. A session starts in the
state in which the last one left the handler. Between two sessions the handler only drops an idle
connection. -/
inductive Conducted (routing : RoutingTable) (start : Forwarder) :
    List TcpSession → Forwarder → Prop
  | created : Conducted routing start [] start
  | expired {sessions : List TcpSession} {handler : Forwarder}
      (before : Conducted routing start sessions handler) :
      Conducted routing start sessions (RequestHandler.expireIdle handler)
  | session {sessions : List TcpSession} {handler handler' : Forwarder}
      (before : Conducted routing start sessions handler) (session : TcpSession)
      (handled : Serving.Handled (RequestHandler.handler routing) handler
        (ServeEvent.calls session.trace) handler') :
      Conducted routing start (sessions ++ [session]) handler'

/-- The handler of a worker has seen what its sessions say, and nothing else. -/
theorem runs_conducted {env : Env} {worlds : List SessionWorld} {done : List (Ticket Connection)}
    (h : (tcpWorker routing).Runs ⟨⟨none, env⟩, worlds, []⟩ done w) :
    Conducted routing ⟨none, env⟩ w.sessions w.handler := by
  induction h with
  | created => exact .created
  | maintained before ih => exact ih.expired
  | @handled tickets w before ticket ih =>
    exact ih.session _ (serveTcp_handled (RequestHandler.handler routing) ticket.job
      (w.worlds.headD .ended).env w.handler)

end TcpWorker

/-- Every session that is over, by whatever worker. -/
def Crew.sessions (s : Crew TcpWorker Connection) : Multiset TcpSession :=
  (s.states.map fun w => (w.sessions : Multiset TcpSession)).sum

/-- What a client can rely on, on its connection. -/
structure TcpSession.Replied (routing : RoutingTable) (session : TcpSession) : Prop where
  /-- At every moment, the requests that were handled have come, in this order, and what was
  written is a prefix of the replies to them, in this order. -/
  caused : ∀ before, before <+: session.trace → ServeEvent.Caused before
  /-- A request is a whole frame, and its reply is one of the handler for this request. -/
  asked : ∀ call ∈ ServeEvent.calls session.trace,
    Framed call.1 ∧ Serving.Asked (RequestHandler.handler routing) call.1 call.2
  /-- The replies are responses to the requests, with their IDs and opcodes. -/
  repliesTo : ∀ call ∈ ServeEvent.calls session.trace, ∀ reply, call.2 = some reply →
    ∃ header p, Dns.RepliesTo call.1 header reply p
  /-- A session that ends without an error has answered all that has come. -/
  balanced : session.result = .ok () → ServeEvent.Balanced session.trace

/-- A session of the pool's record has answered its requests in order. -/
theorem SessionOf.replied {routing : RoutingTable} {ticket : Ticket Connection}
    {session : TcpSession} (h : SessionOf routing ticket session) : session.Replied routing where
  caused := h.ordered.caused
  asked := h.ordered.asked
  repliesTo := by
    intro call hcall reply hreply
    obtain ⟨-, deadline, state, hasked⟩ := h.ordered.asked call hcall
    rw [hreply] at hasked
    exact RequestHandler.respond_repliesTo (toOption_eq_some.mp hasked)
  balanced := h.ordered.balanced

namespace Service

variable {server : Server} {s : Service} {stop : Bool}

/-- What is enqueued is what came in, with a deadline. -/
theorem enqueued_streams {arrivals : List Arrival} {clients : List Connection}
    (h : List.Forall₂ Arrival.Enqueued arrivals clients) :
    clients.map Connection.stream = arrivals.map Arrival.stream := by
  induction h with
  | nil => rfl
  | cons henqueued _ ih =>
    obtain ⟨now, rfl⟩ := henqueued
    rw [List.map_cons, List.map_cons, ih]

/-- The connections that were accepted came in, in order, each at most once. -/
theorem TcpIntake.streams_sublist (h : s.TcpIntake) :
    ((s.tcp.pool.ledger.accepted.map Ticket.job).map Connection.stream).Sublist
      (s.arrived.map Arrival.stream) := by
  obtain ⟨done, rest, heq, henqueued, -⟩ := h
  have hsublist := (s.tcp.pool.accepted_sublist.map Ticket.job).map Connection.stream
  rw [enqueued_streams henqueued] at hsublist
  rw [heq, List.map_append]
  exact hsublist.trans (List.sublist_append_left ..)

/-- Whatever the threads of the service do, a connection that the queue accepted has one session at
most. The session answers the requests of its client in order, with DNS responses to them, and what
is on the stream at any moment is a prefix of these replies. No client has more sessions than it
made connections. The handler of a worker was called with these requests and gave these replies, one
after the other, from the state in which it was created to its state now. -/
theorem tcp_replies (server : Server) (stop : Bool)
    (h : Reaches (Service.step server) (· = start stop) s) :
    (∃ served ≤ (s.tcp.pool.ledger.accepted : Multiset (Ticket Connection)),
      (served.map Ticket.number).Nodup ∧
        Multiset.Rel
          (fun ticket session => session.client = ticket.job ∧ session.Replied server.routing)
          served s.tcp.sessions) ∧
      s.tcp.sessions.map (fun session => session.client.stream) ≤
        (s.arrived.map Arrival.stream : Multiset TcpStream) ∧
      ∀ index w, s.tcp.states[index]? = some w →
        TcpWorker.Conducted server.routing ⟨none, server.tcpEnv index⟩ w.sessions w.handler := by
  obtain ⟨served, hle, hnumbered, hrel⟩ := Crew.exists_made (reaches_tcp h)
    (f := fun w => (w.sessions : Multiset TcpSession)) (r := SessionOf server.routing)
    fun index done w hruns => ⟨done, le_refl _, rel_coe_of_forall₂ (TcpWorker.runs_serves hruns)⟩
  have hconducted : ∀ index w, s.tcp.states[index]? = some w →
      TcpWorker.Conducted server.routing ⟨none, server.tcpEnv index⟩ w.sessions w.handler := by
    intro index w hw
    obtain ⟨done, hdone, -⟩ := (Crew.reaches_staffed (reaches_tcp h)).runs hw
    exact TcpWorker.runs_conducted hdone
  refine ⟨⟨served, hle, hnumbered, hrel.mono fun _ _ _ _ h => ⟨h.client, h.replied⟩⟩, ?_,
    hconducted⟩
  have hclients : s.tcp.sessions.map (fun session => session.client.stream) =
      served.map (fun ticket => ticket.job.stream) :=
    map_eq_of_rel hrel fun ticket session h => congrArg Connection.stream h.client
  rw [hclients]
  have hstreams := (reaches_intake h).2.streams_sublist.subperm
  rw [List.map_map] at hstreams
  exact (Multiset.map_le_map hle).trans (Multiset.coe_le.mpr hstreams)

/-- A server whose TCP workers see a world in which time stands still. -/
def patientServer : Server := { idleServer with tcpWorlds := fun _ => [⟨idle, false⟩] }

/-- The pipelining client connects, and a worker serves it. -/
def sessionRun : List ServiceAction :=
  boot ++ [.listener .go, .listener (.accept (.ok ⟨pipelined.stream, none⟩)), .listener .go,
    .listener (.enqueue 0)] ++ List.replicate 6 (.tcpWorker 0 .run)

/-- The session has two calls of the handler, and they are calls of the handler of the worker. -/
theorem tcp_replies_pipelined : ∃ s,
    runActions (Service.step patientServer) (start false) sessionRun = some s ∧
      (s.tcp.states.map fun w => w.sessions.map fun session =>
        (ServeEvent.calls session.trace).length).flatten = [2] ∧
      s.tcp.sessions.map (fun session => session.client.stream) ≤
        (s.arrived.map Arrival.stream : Multiset TcpStream) ∧
      ∀ index w, s.tcp.states[index]? = some w →
        TcpWorker.Conducted emptyTable ⟨none, patientServer.tcpEnv index⟩ w.sessions
          w.handler := by
  have hcalls : (runActions (Service.step patientServer) (start false) sessionRun).map (fun s =>
      (s.tcp.states.map fun w => w.sessions.map fun session =>
        (ServeEvent.calls session.trace).length).flatten) = some [2] := by
    decide +kernel
  obtain ⟨s, hs, heq⟩ := Option.map_eq_some_iff.mp hcalls
  exact ⟨s, hs, heq, (tcp_replies patientServer false (Reaches.of_run (.start rfl) hs)).2⟩

end Service

end Sederial
