import Sederial.Proofs.ConfigSafe
import Sederial.Proofs.Isolation
import Sederial.Proofs.TcpReplies
import Sederial.Proofs.TrafficBound
import Sederial.Proofs.UdpReplies

/-!
# `Sederial.Proofs.ServiceUpstreams`: whom the service contacts, and how much

`Isolation` and `TrafficBound` are about one request. Here a whole service runs with the routing
table of a configuration file, and its workers carry their handlers from request to request.

`Contacts` describes what a handler did since it was created: for each message it was called with,
in order, events that concern the group of that message only, and quiet events in between. It is an
invariant of a worker of either kind, because both change their handlers by `respond` and by
`expire_idle` only (`Serving.Handled` for the sessions of TCP). Two results follow from it. No
worker ever contacts a server that is not configured, so none contacts the service itself; and what
a server is sent is bounded by what the clients sent.
-/

set_option autoImplicit false

namespace Sederial

open Sederial.Lib
open Event (datagramsTo framesTo)
open Sederial.Dns (Packet Query Response)
open Toml (Table)

/-! ### The traffic of one request -/

/-- Quiet events send nothing to anyone. -/
theorem Event.Quiet.silent {peer : SocketAddr} {new : List Event} (h : ∀ e ∈ new, e.Quiet) :
    Forwarder.Silent peer new := by
  have hnone : ∀ e ∈ new, e.peer = none := fun e he => (h e he).peer_eq_none
  constructor
  · refine List.filterMap_eq_nil_iff.mpr fun e he => ?_
    have hpeer := hnone e he
    cases e <;> first | rfl | cases hpeer
  · refine List.filterMap_eq_nil_iff.mpr fun e he => ?_
    have hpeer := hnone e he
    cases e <;> first | rfl | cases hpeer

namespace RequestHandler

open Forwarder (Bounded CacheTrue)

variable {routing : RoutingTable} {wire : List UInt8} {transport : Transport} {request : Deadline}

/-- The bound for a run of `forward`, whatever its sockets will answer. -/
theorem forward_bounded {q : Query} {group : UpstreamGroup}
    (h : Forwards routing wire q group) :
    Traced CacheTrue (Forwarder.forward q group transport request) fun _ new =>
      ∀ peer, Bounded transport peer new := by
  obtain ⟨-, hforward⟩ := Packet.validateQuery_eq_forward_iff.mp h.forward
  intro s hs
  obtain ⟨hkept, new, hlog, hbounded⟩ :=
    @Forwarder.forwardLoop_bounded s.env.udp q request transport
    (Packet.parsed_of_parse h.parse) hforward.questions group.servers group.distinct .timeout none s
    ⟨hs, fun _ h => h⟩
  exact ⟨hkept.1, new, hlog, hbounded.bounded⟩

/-- `checkDeadline_quiet` for the caches of these handlers. -/
theorem checkDeadline_silent :
    Traced CacheTrue (checkDeadline request) fun _ new => ∀ e ∈ new, e.Quiet :=
  checkDeadline_quiet (T := UpstreamAddress.Leads)

/-- A reply of the handler itself is quiet. -/
theorem orSilent_quiet (reply : Option (List UInt8)) :
    Traced CacheTrue (orSilent reply) fun _ new => ∀ e ∈ new, e.Quiet := by
  have htraced := orSilent_traced (T := UpstreamAddress.Leads) reply
  refine Traced.mono htraced ?_
  intro r new ⟨hnew, _⟩
  rw [hnew]
  exact nofun

/-- So is one behind a deadline check. -/
theorem checked_quiet {m : Run Forwarder NoReply (List UInt8)}
    (hm : Traced CacheTrue m fun _ new => ∀ e ∈ new, e.Quiet) :
    Traced CacheTrue (do checkDeadline request; m) fun _ new => ∀ e ∈ new, e.Quiet := by
  refine checkDeadline_silent.bind (fun e new h => h) fun _ pre hpre => ?_
  refine hm.mono fun r new h e he => ?_
  rcases List.mem_append.mp he with he | he
  · exact hpre e he
  · exact h e he

/-- A relayed request keeps within the bounds of its transport. -/
theorem relay_bounded {q : Query} {group : UpstreamGroup} (h : Forwards routing wire q group) :
    Traced CacheTrue (relay q group transport request) fun _ new =>
      ∀ peer, Bounded transport peer new := by
  refine Traced.bind_ok ((forward_bounded h).attempt fun r body h => ⟨r, rfl, h⟩)
    fun outcome body hbody => ?_
  -- Behind the run of `forward` everything is quiet.
  suffices hquiet : Traced CacheTrue _ fun _ new => ∀ e ∈ new, e.Quiet from
    hquiet.mono fun r new h peer => (hbody peer).append_silent (Event.Quiet.silent h)
  split
  · exact .throw nofun
  · exact checked_quiet (orSilent_quiet _)
  · refine checked_quiet ?_
    split
    · exact .pure nofun
    · exact .pure nofun

/-- What one request makes the handler send. -/
theorem respond_bounded (routing : RoutingTable) (wire : List UInt8) (transport : Transport)
    (request : Deadline) :
    Traced CacheTrue (respond routing wire transport request) fun _ new =>
      ∀ peer, Bounded transport peer new := by
  have hquiet : ∀ {r : Except NoReply (List UInt8)} {new : List Event}, (∀ e ∈ new, e.Quiet) →
      ∀ peer, Bounded transport peer new := fun h peer => (Event.Quiet.silent h).bounded
  -- Only a query that is forwarded contacts a server.
  have hinner : Traced CacheTrue (respondInner routing wire transport request) fun _ new =>
      ∀ peer, Bounded transport peer new := by
    refine checkDeadline_silent.bind (fun e new h => @hquiet (.error e) new h) fun _ pre hpre => ?_
    suffices hrest : Traced CacheTrue _ fun _ new => ∀ peer, Bounded transport peer new from
      hrest.mono fun r new h peer => .silent_append (Event.Quiet.silent hpre) (h peer)
    have halone : ∀ reply, Traced CacheTrue (orSilent reply) fun _ new =>
        ∀ peer, Bounded transport peer new :=
      fun reply => (orSilent_quiet reply).mono fun r new h => @hquiet r new h
    have hsilent : Traced CacheTrue (throw .silent : Run Forwarder NoReply (List UInt8))
        fun _ new => ∀ peer, Bounded transport peer new :=
      .throw (@hquiet (.error .silent) [] nofun)
    -- The branches of the source, in its order.
    split
    · exact hsilent
    · split
      · exact hsilent
      · split
        · exact halone _
        · rename_i packet hparse
          have hparse := Packet.parseForReply_eq_ok_iff.mp hparse
          split
          · exact halone _
          · exact hsilent
          · rename_i q hforward
            obtain ⟨rfl, -⟩ := Packet.validateQuery_eq_forward_iff.mp hforward
            unfold answer
            split
            · exact halone _
            · exact halone _
            · rename_i group hselect
              exact relay_bounded ⟨hparse, hforward, .inl hselect⟩
            · rename_i route hselect
              exact relay_bounded ⟨hparse, hforward, .inr ⟨route, hselect, rfl⟩⟩
  -- The last look at the clock is silent.
  refine hinner.bind (fun e new h => h) fun reply new h => ?_
  refine checkDeadline_silent.bind
    (fun e post hpost peer => (h peer).append_silent (Event.Quiet.silent hpost))
    fun _ post hpost => ?_
  refine .pure fun peer => ?_
  rw [List.append_nil]
  exact (h peer).append_silent (Event.Quiet.silent hpost)

/-! ### The life of a handler -/

/-- Where a reply comes from. The handler made it by itself, as the table selects, or it relays a
response that a server of the selected group sent among these events. -/
inductive Origin (routing : RoutingTable) (transport : Transport) (wire : List UInt8)
    (events : List Event) : List UInt8 → Prop
  | generated {reply : List UInt8} (made : Generated routing wire transport reply) :
      Origin routing transport wire events (finished routing reply)
  | relayed {q : Query} {group : UpstreamGroup} {server : UpstreamAddress} {response : Response}
      {reply : List UInt8} (chosen : Forwards routing wire q group)
      (configured : server ∈ group.servers) (accepted : .accept server.socket response ∈ events)
      (answered : q.Answered false response) (relays : Relays q transport (.ok response) reply) :
      Origin routing transport wire events (finished routing reply)

/-- The reply to a request has its origin among the events of that request. -/
theorem RespondLog.origin_finished {reply : List UInt8} {new : List Event}
    (h : RespondLog UpstreamAddress.Leads routing wire transport request (.ok reply) new) :
    Origin routing transport wire new (finished routing reply) := by
  rcases h.generated_or_fromUpstream with hgenerated |
    ⟨q, group, response, hchosen, haccepted, hanswered, hrelays⟩
  · exact .generated hgenerated
  · -- The event that accepted the response belongs to a visit, and so to a server of the group.
    obtain ⟨e, he, hresponse⟩ := List.mem_filterMap.mp haccepted
    cases e <;> cases hresponse
    rename_i peer
    obtain ⟨server, hserver, rfl⟩ := (h.walks hchosen).peer_mem _ he peer rfl
    exact .relayed hchosen hserver he hanswered hrelays

/-- The events of one request, with its reply. They concern the group that the table selects for the
message, and nobody when the message is not forwarded. -/
structure Isolated (routing : RoutingTable) (transport : Transport) (wire : List UInt8)
    (reply : Option (List UInt8)) (new : List Event) : Prop where
  alone : Unforwarded routing wire → ∀ e ∈ new, e.peer = none
  walks : ∀ q group, Forwards routing wire q group → Walks group.servers new
  bounded : ∀ peer, Bounded transport peer new
  origin : ∀ r, reply = some r → Origin routing transport wire new r

/-- The events of a handler that was called with these messages, one after the other, and that gave
these replies. -/
inductive Contacts (routing : RoutingTable) (transport : Transport) :
    List (List UInt8 × Option (List UInt8)) → List Event → Prop
  | created : Contacts routing transport [] []
  | expired {calls : List (List UInt8 × Option (List UInt8))} {log new : List Event}
      (before : Contacts routing transport calls log) (quiet : ∀ e ∈ new, e.Quiet) :
      Contacts routing transport calls (log ++ new)
  | called {calls : List (List UInt8 × Option (List UInt8))} {log new : List Event}
      (before : Contacts routing transport calls log) (wire : List UInt8)
      (reply : Option (List UInt8)) (isolated : Isolated routing transport wire reply new) :
      Contacts routing transport (calls ++ [(wire, reply)]) (log ++ new)

/-- The requests of a handler, from the state in which it was created to its state now. The part of
a request is what the call of `respond` added to the record of the handler. -/
inductive Requests (routing : RoutingTable) (transport : Transport) (start : Forwarder) :
    List (List UInt8 × Option (List UInt8)) → List (List Event) → Forwarder → Prop
  | created : Requests routing transport start [] [] start
  | expired {calls : List (List UInt8 × Option (List UInt8))} {parts : List (List Event)}
      {handler : Forwarder} (before : Requests routing transport start calls parts handler) :
      Requests routing transport start calls parts (RequestHandler.expireIdle handler)
  | called {calls : List (List UInt8 × Option (List UInt8))} {parts : List (List Event)}
      {handler : Forwarder} (before : Requests routing transport start calls parts handler)
      (wire : List UInt8) (request : Deadline) {part : List Event}
      (added : ((respond routing wire transport request).exec handler).2.env.log =
        handler.env.log ++ part) :
      Requests routing transport start
        (calls ++ [(wire, ((respond routing wire transport request).exec handler).1.toOption)])
        (parts ++ [part]) ((respond routing wire transport request).exec handler).2

/-- A handler that was created with `env` and called with these messages. Each of its requests is
isolated in its own part of the record. -/
structure Contacting (routing : RoutingTable) (transport : Transport) (env : Env)
    (calls : List (List UInt8 × Option (List UInt8))) (handler : Forwarder) : Prop where
  cache : CacheTrue handler
  contacts : ∃ log, handler.env.log = env.log ++ log ∧ Contacts routing transport calls log
  requests : ∃ parts, Requests routing transport ⟨none, env⟩ calls parts handler ∧
    List.Forall₂ (fun call part => Isolated routing transport call.1 call.2 part) calls parts

variable {env : Env} {calls : List (List UInt8 × Option (List UInt8))} {handler : Forwarder}

/-- A new handler has handled nothing. -/
theorem Contacting.created (env : Env) : Contacting routing transport env [] ⟨none, env⟩ where
  cache := nofun
  contacts := ⟨[], (List.append_nil _).symm, .created⟩
  requests := ⟨[], .created, .nil⟩

/-- A call of `respond`. -/
theorem Contacting.called (h : Contacting routing transport env calls handler)
    (wire : List UInt8) (request : Deadline) :
    Contacting routing transport env
      (calls ++ [(wire, ((respond routing wire transport request).exec handler).1.toOption)])
      ((respond routing wire transport request).exec handler).2 := by
  obtain ⟨hcache, ⟨log, hlog, hcontacts⟩, parts, hrequests, hparts⟩ := h
  have hboth := (respond_logs routing wire transport request UpstreamAddress.leads_socket).and
    (respond_bounded routing wire transport request)
  obtain ⟨hkept, new, hnew, ⟨inner, hinner, hreply⟩, hbounded⟩ := hboth handler ⟨hcache, hcache⟩
  have hisolated : Isolated routing transport wire
      ((respond routing wire transport request).exec handler).1.toOption new := by
    constructor
    · exact fun hun e he => (hinner.quiet hun e he).peer_eq_none
    · exact fun q group hforwards => hinner.walks hforwards
    · exact hbounded
    · intro r hr
      obtain ⟨reply, rfl, rfl⟩ := hreply r (toOption_eq_some.mp hr)
      exact hinner.origin_finished
  refine ⟨hkept.2, ⟨log ++ new, ?_, hcontacts.called wire _ hisolated⟩, parts ++ [new],
    hrequests.called wire request hnew, List.rel_append hparts (.cons hisolated .nil)⟩
  rw [← List.append_assoc, ← hlog]
  exact hnew

/-- A call of `expire_idle`. -/
theorem Contacting.expired (h : Contacting routing transport env calls handler) :
    Contacting routing transport env calls (RequestHandler.expireIdle handler) := by
  obtain ⟨hcache, ⟨log, hlog, hcontacts⟩, parts, hrequests, hparts⟩ := h
  have hexpire := @Forwarder.expireIdle_traced NoReply UpstreamAddress.Leads (fun _ => False)
    fun _ => False
  obtain ⟨hkept, new, hnew, hemits⟩ := hexpire handler hcache
  refine ⟨hkept, ⟨log ++ new, ?_, hcontacts.expired fun e he => .inl (hemits.events e he)⟩,
    parts, hrequests.expired, hparts⟩
  rw [← List.append_assoc, ← hlog]
  exact hnew

end RequestHandler

/-! ### The workers -/

open RequestHandler (Contacting Contacts Unforwarded Forwards)

/-- A job of a worker for UDP, with the reply that its handler gave. -/
abbrev Datagram.Handling : Type := Ticket Datagram × Option (List UInt8)

/-- The calls of the handler for some jobs. -/
def Datagram.calls (outcomes : List Datagram.Handling) : List (List UInt8 × Option (List UInt8)) :=
  outcomes.map fun outcome => (outcome.1.job.wire, outcome.2)

/-- What is sent for some jobs. -/
def Datagram.replies (outcomes : List Datagram.Handling) : List (SocketAddr × List UInt8) :=
  outcomes.filterMap fun outcome => outcome.2.map fun reply => (outcome.1.job.peer, reply)

/-- The calls of the handler in some sessions. -/
def TcpSession.calls (sessions : List TcpSession) : List (List UInt8 × Option (List UInt8)) :=
  sessions.flatMap fun session => ServeEvent.calls session.trace

/-- A worker for UDP is through with these jobs, and sent the replies of its handler. -/
structure UdpWorker.Through (routing : RoutingTable) (env : Env) (outcomes : List Datagram.Handling)
    (w : UdpWorker) : Prop where
  contacting : Contacting routing .udp env (Datagram.calls outcomes) w.handler
  sent : w.sent.map (fun sent => (sent.peer, sent.wire)) = Datagram.replies outcomes

/-- A call of `handle`. -/
theorem UdpWorker.Through.handle {routing : RoutingTable} {env : Env}
    {outcomes : List Datagram.Handling} {w : UdpWorker} (h : Through routing env outcomes w)
    (ticket : Ticket Datagram) :
    ∃ reply, Through routing env (outcomes ++ [(ticket, reply)]) (w.handle routing ticket.job) := by
  obtain ⟨hhandler, hsent⟩ := handle_cases routing ticket.job w
  refine ⟨((RequestHandler.respond routing ticket.job.wire .udp ticket.job.deadline).exec
    w.handler).1.toOption, ?_, ?_⟩
  · have hcalls : ∀ reply, Datagram.calls (outcomes ++ [(ticket, reply)]) =
        Datagram.calls outcomes ++ [(ticket.job.wire, reply)] := fun _ => List.map_append
    rw [hcalls, hhandler]
    exact h.contacting.called ticket.job.wire ticket.job.deadline
  · have hreplies : ∀ reply, Datagram.replies (outcomes ++ [(ticket, reply)]) =
        Datagram.replies outcomes ++ Datagram.replies [(ticket, reply)] :=
      fun _ => List.filterMap_append
    rw [hreplies, ← h.sent]
    rcases hsent with ⟨hsent, hnone⟩ | ⟨sent, hsent, hpeer, hreply⟩
    · rw [hsent, hnone]
      exact (List.append_nil _).symm
    · have hone : [(sent.peer, sent.wire)] = Datagram.replies [(ticket, some sent.wire)] := by
        rw [hpeer]
        rfl
      rw [hsent, hreply, List.map_append]
      exact congrArg _ hone

/-- A worker for UDP has gone through its jobs in order. -/
theorem UdpWorker.runs_through {routing : RoutingTable} {env : Env}
    {answers : List (Option ErrorKind)} {done : List (Ticket Datagram)} {w : UdpWorker}
    (h : (udpWorker routing).Runs ⟨⟨none, env⟩, answers, []⟩ done w) :
    ∃ outcomes, outcomes.map Prod.fst = done ∧ Through routing env outcomes w := by
  induction h with
  | created => exact ⟨[], rfl, .created env, rfl⟩
  | maintained before ih =>
    obtain ⟨outcomes, hdone, hthrough⟩ := ih
    exact ⟨outcomes, hdone, hthrough.contacting.expired, hthrough.sent⟩
  | @handled tickets w before ticket ih =>
    obtain ⟨outcomes, rfl, hthrough⟩ := ih
    obtain ⟨reply, hhandled⟩ := hthrough.handle ticket
    exact ⟨outcomes ++ [(ticket, reply)], List.map_append, hhandled⟩

/-- A session calls the handler with each of its messages. -/
theorem RequestHandler.Contacting.session {routing : RoutingTable} {env : Env}
    {calls calls' : List (List UInt8 × Option (List UInt8))} {handler handler' : Forwarder}
    (h : Contacting routing .tcp env calls handler)
    (hhandled : Serving.Handled (RequestHandler.handler routing) handler calls' handler') :
    Contacting routing .tcp env (calls ++ calls') handler' := by
  induction hhandled with
  | none =>
    rw [List.append_nil]
    exact h
  | call before wire deadline ih =>
    rw [← List.append_assoc]
    exact ih.called wire deadline

/-- A worker for TCP has called its handler as its sessions say. -/
theorem TcpWorker.runs_contacting {routing : RoutingTable} {env : Env}
    {worlds : List SessionWorld} {done : List (Ticket Connection)} {w : TcpWorker}
    (h : (tcpWorker routing).Runs ⟨⟨none, env⟩, worlds, []⟩ done w) :
    Contacting routing .tcp env (TcpSession.calls w.sessions) w.handler := by
  induction h with
  | created => exact .created env
  | maintained before ih => exact ih.expired
  | @handled tickets w before ticket ih =>
    have hsession := ih.session (serveTcp_handled (RequestHandler.handler routing) ticket.job
      (w.worlds.headD .ended).env w.handler)
    show Contacting routing .tcp env (TcpSession.calls (w.sessions ++ [_])) _
    have hcalls : ∀ session, TcpSession.calls (w.sessions ++ [session]) =
        TcpSession.calls w.sessions ++ ServeEvent.calls session.trace := by
      intro session
      show (w.sessions ++ [session]).flatMap _ = _
      rw [List.flatMap_append, List.flatMap_singleton]
      rfl
    rw [hcalls]
    exact hsession

/-! ### The service -/

/-- An endpoint that a configuration names as an upstream server, and that is not its listener. -/
structure Config.Upstream (config : Config) (peer : SocketAddr) : Prop where
  configured : ∃ group ∈ config.groups, ∃ server ∈ group.servers, peer = server.socket
  other : ¬ (peer.port = config.listen.port ∧ peer.ip = config.listen.ip)

/-- The group of a forwarded query is in the table. -/
theorem RequestHandler.Forwards.group_mem {config : Config} {wire : List UInt8} {q : Query}
    {group : UpstreamGroup} (h : Forwards config.routing wire q group) :
    group ∈ config.groups := by
  rcases h.select with hdefault | ⟨route, hroute, hgroup⟩
  · refine List.mem_append_left _ ?_
    rw [(RoutingTable.select_eq_group_iff.mp hdefault).1]
    exact List.mem_singleton_self group
  · have hmem := (@RoutingTable.select_eq_selection_iff _ _ (.route route)).mp hroute
    refine List.mem_append_right _ (List.mem_map.mpr ⟨route, ?_, hgroup⟩)
    exact RoutingTable.mem_rules_route.mp hmem.mem

/-- Whatever a handler was called with, it contacted configured servers only. -/
theorem RequestHandler.Contacts.configured {config : Config} {transport : Transport}
    {calls : List (List UInt8 × Option (List UInt8))} {log : List Event}
    (h : Contacts config.routing transport calls log) :
    ∀ e ∈ log, ∀ p, e.peer = some p →
      ∃ group ∈ config.groups, ∃ server ∈ group.servers, p = server.socket := by
  induction h with
  | created => exact nofun
  | expired before quiet ih =>
    intro e he p hp
    rcases List.mem_append.mp he with he | he
    · exact ih e he p hp
    · rw [(quiet e he).peer_eq_none] at hp
      cases hp
  | called before wire reply isolated ih =>
    intro e he p hp
    rcases List.mem_append.mp he with he | he
    · exact ih e he p hp
    · rcases unforwarded_or_forwards config.routing wire with hun | ⟨q, group, hforwards⟩
      · rw [isolated.alone hun e he] at hp
        cases hp
      · have hserver := (isolated.walks q group hforwards).peer_mem e he p hp
        exact ⟨group, hforwards.group_mem, hserver⟩

/-- What a handler sent, by the number of its calls. -/
theorem RequestHandler.Contacts.traffic {routing : RoutingTable} {transport : Transport}
    {calls : List (List UInt8 × Option (List UInt8))} {log : List Event}
    (h : Contacts routing transport calls log) (peer : SocketAddr) :
    (datagramsTo peer log).length ≤ 2 * calls.length ∧
      (framesTo peer log).length ≤ 6 * calls.length ∧
      (transport = .tcp → datagramsTo peer log = []) := by
  induction h with
  | created => exact ⟨Nat.le_refl 0, Nat.le_refl 0, fun _ => rfl⟩
  | expired before quiet ih =>
    obtain ⟨hdatagrams, hframes⟩ := @Event.Quiet.silent peer _ quiet
    rw [Event.datagramsTo_append, Event.framesTo_append, hdatagrams, hframes, List.append_nil,
      List.append_nil]
    exact ih
  | called before wire reply isolated ih =>
    obtain ⟨hdatagrams, hframes, htcp⟩ := ih
    have hcall := isolated.bounded peer
    have hcallDatagrams := hcall.datagrams
    have hcallFrames := hcall.frames
    rw [Event.datagramsTo_append, Event.framesTo_append, List.length_append, List.length_append,
      List.length_append, List.length_singleton]
    refine ⟨by omega, by omega, fun hover => ?_⟩
    rw [htcp hover, hcall.overTcp hover]
    rfl

/-- The configuration of an accepted file is safe. -/
theorem Config.safe_of_parse {f : Formats} {toml : String → Except String Table} {text : String}
    {config : Config} (h : Config.parse f toml text = .ok config) :
    ∃ table, Config.Safe table config := by
  obtain ⟨table, -, hparse⟩ := bind_eq_ok.mp h
  exact ⟨table, (Config.parseTable_eq_ok_iff.mp hparse).reads.safe⟩

/-- A server of the configuration is an upstream server, and not the listener. -/
theorem Config.Safe.upstream {table : Table} {config : Config} (h : Config.Safe table config)
    {peer : SocketAddr}
    (hpeer : ∃ group ∈ config.groups, ∃ server ∈ group.servers, peer = server.socket) :
    config.Upstream peer := by
  refine ⟨hpeer, ?_⟩
  obtain ⟨group, hgroup, server, hserver, rfl⟩ := hpeer
  exact h.noLoop group hgroup server hserver

namespace Service

variable {server : Server} {s : Service} {stop : Bool}

/-- What each worker has done with its handler since it was created. -/
theorem reaches_contacting (h : Reaches (Service.step server) (· = start stop) s) :
    (∀ index w, s.udp.states[index]? = some w → ∃ outcomes,
      outcomes.map Prod.fst <+: s.udp.pool.handledBy index ∧
        UdpWorker.Through server.routing (server.udpEnv index) outcomes w) ∧
    ∀ index w, s.tcp.states[index]? = some w →
      Contacting server.routing .tcp (server.tcpEnv index) (TcpSession.calls w.sessions)
        w.handler := by
  constructor
  · intro index w hw
    obtain ⟨done, hdone, hprefix⟩ := (Crew.reaches_staffed (reaches_udp h)).runs hw
    obtain ⟨outcomes, rfl, hthrough⟩ := UdpWorker.runs_through hdone
    exact ⟨outcomes, hprefix, hthrough⟩
  · intro index w hw
    obtain ⟨done, hdone, -⟩ := (Crew.reaches_staffed (reaches_tcp h)).runs hw
    exact TcpWorker.runs_contacting hdone

/-- A service that runs with an accepted configuration never contacts an endpoint that the
configuration does not name as a server, and never itself, in any interleaving. What a worker did is
the requests it handled, one after the other, and each of them concerned the group that the table
selects for its question, in configured order, or nobody. -/
theorem upstreams_configured {f : Formats} {toml : String → Except String Table}
    {text : String} {config : Config} (hparse : Config.parse f toml text = .ok config)
    (server : Server) (hrouting : server.routing = config.routing) (stop : Bool)
    (h : Reaches (Service.step server) (· = start stop) s) :
    (∀ index w, s.udp.states[index]? = some w →
      ∃ outcomes log, outcomes.map Prod.fst <+: s.udp.pool.handledBy index ∧
        w.handler.env.log = (server.udpEnv index).log ++ log ∧
        Contacts config.routing .udp (Datagram.calls outcomes) log ∧
        ∀ e ∈ log, ∀ p, e.peer = some p → config.Upstream p) ∧
    ∀ index w, s.tcp.states[index]? = some w →
      ∃ log, w.handler.env.log = (server.tcpEnv index).log ++ log ∧
        Contacts config.routing .tcp (TcpSession.calls w.sessions) log ∧
        ∀ e ∈ log, ∀ p, e.peer = some p → config.Upstream p := by
  obtain ⟨table, hsafe⟩ := Config.safe_of_parse hparse
  obtain ⟨hudp, htcp⟩ := reaches_contacting h
  rw [hrouting] at hudp htcp
  constructor
  · intro index w hw
    obtain ⟨outcomes, hprefix, ⟨-, ⟨log, hlog, hcontacts⟩, -⟩, -⟩ := hudp index w hw
    exact ⟨outcomes, log, hprefix, hlog, hcontacts,
      fun e he p hp => hsafe.upstream (hcontacts.configured e he p hp)⟩
  · intro index w hw
    obtain ⟨-, ⟨log, hlog, hcontacts⟩, -⟩ := htcp index w hw
    exact ⟨log, hlog, hcontacts,
      fun e he p hp => hsafe.upstream (hcontacts.configured e he p hp)⟩

/-- A server whose workers for UDP meet an upstream server that wants a cookie and then answers. -/
def challengedServer (routing : RoutingTable) : Server :=
  { idleServer with
    routing := routing
    udpEnv := fun _ => (Forwarder.challenged (Dns.setId Dns.plainChallenge.wire ⟨1⟩)
      Forwarder.plainAnswer.wire).env }

/-- A query comes in, and a worker forwards it. -/
def forwardRun : List ServiceAction :=
  boot ++ [.main .go, .main (.receive (.ok (Dns.plainQuery.wire, someClient)) 0), .main .go,
    .main .go] ++ List.replicate 6 (.udpWorker 0 .run)

/-- With the example file, a query takes four contacts. -/
theorem upstreams_configured_home : ∃ config s w,
    Config.parse Config.homeFormats Config.homeToml Config.homeText = .ok config ∧
      runActions (Service.step (challengedServer config.routing)) (start false) forwardRun =
        some s ∧
      s.udp.states[0]? = some w ∧ (w.handler.env.log.filterMap Event.peer).length = 4 ∧
      ∀ e ∈ w.handler.env.log, ∀ p, e.peer = some p → config.Upstream p := by
  have hcount : ((Config.parse Config.homeFormats Config.homeToml Config.homeText).toOption.bind
      fun config =>
        (runActions (Service.step (challengedServer config.routing)) (start false) forwardRun).bind
          fun s => s.udp.states[0]?.map fun w =>
            (w.handler.env.log.filterMap Event.peer).length) = some 4 := by
    decide +kernel
  obtain ⟨config, hconfig, hrest⟩ := Option.bind_eq_some_iff.mp hcount
  obtain ⟨s, hs, hrest⟩ := Option.bind_eq_some_iff.mp hrest
  obtain ⟨w, hw, hlength⟩ := Option.map_eq_some_iff.mp hrest
  have hparse : Config.parse Config.homeFormats Config.homeToml Config.homeText = .ok config := by
    cases hresult : Config.parse Config.homeFormats Config.homeToml Config.homeText with
    | error e =>
      rw [hresult] at hconfig
      cases hconfig
    | ok config' =>
      rw [hresult] at hconfig
      cases hconfig
      rfl
  obtain ⟨-, log, -, hlog, -, hconfigured⟩ := (upstreams_configured hparse
    (challengedServer config.routing) rfl false (Reaches.of_run (.start rfl) hs)).1 0 w hw
  refine ⟨config, s, w, hparse, hs, hw, hlength, ?_⟩
  rw [hlog]
  exact hconfigured

/-- The service does not amplify. Whatever it received and however its threads interleaved, its
workers for UDP have sent an upstream server at most two datagrams and six frames for each datagram
that a client sent. Its workers for TCP never sent a datagram, and at most six frames for each
request. The records of the workers start empty. -/
theorem upstream_traffic (server : Server) (hudp : ∀ index, (server.udpEnv index).log = [])
    (htcp : ∀ index, (server.tcpEnv index).log = []) (stop : Bool)
    (h : Reaches (Service.step server) (· = start stop) s) (peer : SocketAddr) :
    (s.udp.states.map fun w => (datagramsTo peer w.handler.env.log).length).sum ≤
        2 * s.received.length ∧
      (s.udp.states.map fun w => (framesTo peer w.handler.env.log).length).sum ≤
        6 * s.received.length ∧
      ∀ w ∈ s.tcp.states, datagramsTo peer w.handler.env.log = [] ∧
        (framesTo peer w.handler.env.log).length ≤ 6 * (TcpSession.calls w.sessions).length := by
  have haccepted : s.udp.pool.ledger.accepted.length ≤ s.received.length := by
    have hlength := (reaches_intake h).1.accepted_sublist.length_le
    rwa [List.length_map] at hlength
  -- What a worker sent, by the jobs it is through with.
  have hworker : ∀ index done w, (udpWorker server.routing).Runs (server.createUdp index) done w →
      (datagramsTo peer w.handler.env.log).length ≤ 2 * done.length ∧
        (framesTo peer w.handler.env.log).length ≤ 6 * done.length := by
    intro index done w hdone
    obtain ⟨outcomes, rfl, ⟨-, ⟨log, hlog, hcontacts⟩, -⟩, -⟩ := UdpWorker.runs_through hdone
    obtain ⟨hdatagrams, hframes, -⟩ := hcontacts.traffic peer
    rw [hudp, List.nil_append] at hlog
    have hcalls : (Datagram.calls outcomes).length = (outcomes.map Prod.fst).length := by
      rw [List.length_map]
      exact List.length_map _
    rw [hcalls] at hdatagrams hframes
    rw [hlog]
    exact ⟨hdatagrams, hframes⟩
  refine ⟨?_, ?_, fun w hw => ?_⟩
  · have hsum := Crew.sum_le_accepted (reaches_udp h)
      fun index done w hdone => (hworker index done w hdone).1
    exact hsum.trans (Nat.mul_le_mul_left 2 haccepted)
  · have hsum := Crew.sum_le_accepted (reaches_udp h)
      fun index done w hdone => (hworker index done w hdone).2
    exact hsum.trans (Nat.mul_le_mul_left 6 haccepted)
  · obtain ⟨index, hindex⟩ := List.mem_iff_getElem?.mp hw
    obtain ⟨-, ⟨log, hlog, hcontacts⟩, -⟩ := (reaches_contacting h).2 index w hindex
    obtain ⟨-, hframes, hnone⟩ := hcontacts.traffic peer
    rw [htcp, List.nil_append] at hlog
    rw [hlog]
    exact ⟨hnone rfl, hframes⟩

/-- A table with one group, for every name. -/
def oneTable : RoutingTable := { emptyTable with default := some Forwarder.oneServer }

/-- A query that is challenged and answered takes two datagrams, as many as there can be. -/
theorem upstream_traffic_plainQuery : ∃ s,
    runActions (Service.step (challengedServer oneTable)) (start false) forwardRun = some s ∧
      s.received.length = 1 ∧
      (s.udp.states.map fun w =>
        (datagramsTo Forwarder.firstServer.socket w.handler.env.log).length).sum = 2 ∧
      (s.udp.states.map fun w =>
        (datagramsTo Forwarder.firstServer.socket w.handler.env.log).length).sum ≤
          2 * s.received.length := by
  have hcounts : (runActions (Service.step (challengedServer oneTable)) (start false)
      forwardRun).map (fun s => (s.received.length, (s.udp.states.map fun w =>
        (datagramsTo Forwarder.firstServer.socket w.handler.env.log).length).sum)) =
          some (1, 2) := by
    decide +kernel
  obtain ⟨s, hs, heq⟩ := Option.map_eq_some_iff.mp hcounts
  rw [Prod.mk.injEq] at heq
  have hbound := upstream_traffic (challengedServer oneTable) (fun _ => rfl) (fun _ => rfl) false
    (Reaches.of_run (.start rfl) hs) Forwarder.firstServer.socket
  exact ⟨s, hs, heq.1, heq.2, hbound.1⟩

end Service

end Sederial
