import Sederial.Proofs.Correlation
import Sederial.Proofs.LongestMatch
import Sederial.Proofs.Respond

/-!
# `Sederial.Proofs.Isolation`: whom a request contacts

A private name must not leak to another resolver. `respond_isolated` is the statement for
whole runs of a handler: while it answers one client message, it contacts servers of one
group only, the one selected for the name of the question, and no server at all when the
message is not forwarded. `Walks` is the order of the visits: in configured order, each
server at most once, and the next one only after the visit before it failed.

The handler carries one thing from request to request, the cached connection. It may belong
to another group. `Reachable.cacheOk` is the invariant that keeps it apart.
-/

set_option autoImplicit false

namespace Sederial

open Sederial.Lib
open Sederial.Dns (Packet Query Response ResponseCode)

namespace Event

/-- The peer that a datagram, a connection or a stream leads to. -/
def peer : Event → Option SocketAddr
  | .udpSend peer _ | .tcpConnect peer | .tcpReuse peer | .tcpSend peer _ | .tcpWrite peer _
  | .tcpRead peer _ | .accept peer _ => some peer
  | .now _ | .check _ | .entropy _ | .attempt _ | .visit _ | .outcome _ _ => none

/-- The servers visited among some events, in order. -/
def visits (events : List Event) : List UpstreamAddress :=
  events.filterMap fun
    | .visit address => some address
    | _ => none

/-- The visits of two stretches. -/
@[simp] theorem visits_append (es es' : List Event) :
    visits (es ++ es') = visits es ++ visits es' :=
  List.filterMap_append

/-- The outcomes of a visit after which the next server is tried. -/
def Advances : Except ForwardError Response → Prop
  | .error e => e ≠ .cancelled
  | .ok response => response.responseCode = .serverFailure ∨ response.responseCode = .refused

/-- A quiet event concerns no peer. -/
theorem Quiet.peer_eq_none {e : Event} (h : e.Quiet) : e.peer = none := by
  rcases h with h | ⟨address, rfl⟩
  · cases e <;> first | rfl | exact h.elim
  · rfl

/-- An event of a visit concerns a peer of that server, if any. -/
theorem Visiting.peer {K : SocketAddr → Prop} {e : Event} (h : e.Visiting K) :
    ∀ p, e.peer = some p → K p := by
  rcases h with h | ⟨peer, response, rfl, h⟩
  · cases e <;> intro p hp <;> cases hp <;> first | exact h | exact h.elim
  · intro p hp
    cases hp
    exact h

/-- Where no visit starts there are no visits. -/
theorem visits_eq_nil {es : List Event} (h : ∀ e ∈ es, ∀ address, e ≠ .visit address) :
    visits es = [] := by
  refine List.filterMap_eq_nil_iff.mpr fun e he => ?_
  have hne := h e he
  cases e <;> first | rfl | exact (hne _ rfl).elim

/-- A quiet event starts no visit. -/
theorem Quiet.ne_visit {e : Event} (h : e.Quiet) (address : UpstreamAddress) :
    e ≠ .visit address := by
  rintro rfl
  rcases h with h | ⟨_, h⟩
  · exact h
  · cases h

/-- Nor does an event within one. -/
theorem Visiting.ne_visit {K : SocketAddr → Prop} {e : Event} (h : e.Visiting K)
    (address : UpstreamAddress) : e ≠ .visit address := by
  rintro rfl
  rcases h with h | ⟨_, _, h, -⟩
  · exact h
  · cases h

end Event

open Event (Advances visits)

/-- The peer is the socket of the server. -/
def UpstreamAddress.Leads (a : UpstreamAddress) (peer : SocketAddr) : Prop := peer = a.socket

/-- An address leads to its own socket. -/
theorem UpstreamAddress.leads_socket (a : UpstreamAddress) : a.Leads a.socket := rfl

/-- The visits to the servers of a list. Each visit concerns its own server only, and another
one follows only when its outcome advances. -/
inductive Walks : List UpstreamAddress → List Event → Prop
  | stops {servers : List UpstreamAddress} {new : List Event} (quiet : ∀ e ∈ new, e.Quiet) :
      Walks servers new
  | visits {a : UpstreamAddress} {rest : List UpstreamAddress} {pre body new : List Event}
      {r : Except ForwardError Response} (quiet : ∀ e ∈ pre, e.Quiet)
      (inside : ∀ e ∈ body, e.Visiting a.Leads)
      (advances : visits new ≠ [] → Advances r) (next : Walks rest new) :
      Walks (a :: rest) (pre ++ .visit a :: (body ++ .outcome a r :: new))

namespace Walks

variable {servers : List UpstreamAddress} {new pre post : List Event}

/-- Quiet events may come before a walk. -/
theorem prepend (h : Walks servers new) (hpre : ∀ e ∈ pre, e.Quiet) :
    Walks servers (pre ++ new) := by
  cases h with
  | stops quiet =>
    refine .stops fun e he => ?_
    rcases List.mem_append.mp he with he | he
    · exact hpre e he
    · exact quiet e he
  | visits quiet inside advances next =>
    rw [← List.append_assoc]
    refine .visits (fun e he => ?_) inside advances next
    rcases List.mem_append.mp he with he | he
    · exact hpre e he
    · exact quiet e he

/-- Quiet events may come after a walk. -/
theorem append (h : Walks servers new) (hpost : ∀ e ∈ post, e.Quiet) :
    Walks servers (new ++ post) := by
  induction h with
  | stops quiet =>
    refine .stops fun e he => ?_
    rcases List.mem_append.mp he with he | he
    · exact quiet e he
    · exact hpost e he
  | @visits a rest pre body new r quiet inside advances _ ih =>
    -- Quiet events visit nobody, so whether another visit follows does not change.
    have hvisits : Event.visits (new ++ post) = Event.visits new := by
      rw [Event.visits_append, Event.visits_eq_nil fun e he => (hpost e he).ne_visit,
        List.append_nil]
    rw [List.append_assoc, List.cons_append, List.append_assoc, List.cons_append]
    exact .visits quiet inside (by rwa [hvisits]) ih

/-- A walk contacts servers of its list only. -/
theorem peer_mem (h : Walks servers new) :
    ∀ e ∈ new, ∀ p, e.peer = some p → ∃ a ∈ servers, p = a.socket := by
  induction h with
  | stops quiet =>
    intro e he p hp
    rw [(quiet e he).peer_eq_none] at hp
    cases hp
  | @visits a rest pre body new r quiet inside advances next ih =>
    intro e he p hp
    rcases List.mem_append.mp he with he | he
    · rw [(quiet e he).peer_eq_none] at hp
      cases hp
    · rcases List.mem_cons.mp he with rfl | he
      · cases hp
      · rcases List.mem_append.mp he with he | he
        · exact ⟨a, List.mem_cons_self, (inside e he).peer p hp⟩
        · rcases List.mem_cons.mp he with rfl | he
          · cases hp
          · obtain ⟨b, hb, hsocket⟩ := ih e he p hp
            exact ⟨b, List.mem_cons_of_mem a hb, hsocket⟩

/-- A walk visits the servers in order, from the first on. -/
theorem visits_ordered (h : Walks servers new) : Event.visits new <+: servers := by
  induction h with
  | stops quiet =>
    rw [Event.visits_eq_nil fun e he => (quiet e he).ne_visit]
    exact ⟨_, List.nil_append _⟩
  | @visits a rest pre body new r quiet inside advances next ih =>
    have hvisits : Event.visits (pre ++ .visit a :: (body ++ .outcome a r :: new))
        = a :: Event.visits new := by
      rw [Event.visits_append, Event.visits_eq_nil fun e he => (quiet e he).ne_visit,
        List.nil_append]
      show a :: Event.visits (body ++ .outcome a r :: new) = _
      rw [Event.visits_append, Event.visits_eq_nil fun e he => (inside e he).ne_visit,
        List.nil_append]
      rfl
    rw [hvisits]
    exact (List.prefix_cons_inj a).mpr ih

end Walks

/-! ### From the walk of the forwarder -/

/-- The start of a turn is quiet. -/
theorem Forwarder.TurnStart.quiet {q : Query} {request : Deadline} {a : UpstreamAddress}
    {r : Except ForwardError Exchange} {new : List Event} (h : TurnStart q request a r new) :
    ∀ e ∈ new, e.Quiet := by
  cases h <;> simp [Event.Quiet, Event.Chatter]

/-- A response that is retried in the group leads to the next server. -/
theorem advances_of_retriesInGroup {response : Response}
    (h : retriesInGroup response.responseCode = true) : Advances (.ok response) := by
  simpa [retriesInGroup, Advances] using h

/-- The forwarder walks. -/
theorem Forwarder.ForwardLog.walks {q : Query} {request : Deadline}
    {servers : List UpstreamAddress} {last : ForwardError} {relayed : Option Response}
    {r : Except ForwardError Response} {new : List Event}
    (h : ForwardLog q UpstreamAddress.Leads request servers last relayed r new) :
    Walks servers new := by
  have hcheck : ∀ reading : Option Reading, ∀ e ∈ [Event.check reading], e.Quiet := by
    simp [Event.Quiet, Event.Chatter]
  induction h with
  | expires _ => exact .stops (hcheck _)
  | relays _ => exact .stops (hcheck _)
  | gives _ => exact .stops (hcheck _)
  | unstarted start => exact .stops start.quiet
  | cancelled start visit =>
    exact .visits start.quiet visit.events (fun h => (h rfl).elim) (.stops (by simp))
  | failed start visit ordinary _ ih =>
    exact .visits start.quiet visit.events (fun _ => ordinary) ih
  | late start visit _ =>
    exact .visits start.quiet visit.events (fun h => (h rfl).elim) (.stops (hcheck _))
  | returns start visit _ _ =>
    exact .visits start.quiet visit.events (fun h => (h rfl).elim) (.stops (hcheck _))
  | advances start visit _ retried _ ih =>
    exact .visits start.quiet visit.events (fun _ => advances_of_retriesInGroup retried)
      (ih.prepend (hcheck _))

/-! ### Requests of a handler -/

namespace RequestHandler

/-- The states of a handler: it starts without a cached connection in any world, answers
messages, and drops an expired connection when its worker polls. -/
inductive Reachable (routing : RoutingTable) : Forwarder → Prop
  | fresh (env : Env) : Reachable routing ⟨none, env⟩
  | respond {s : Forwarder} (wire : List UInt8) (transport : Transport) (request : Deadline)
      (previous : Reachable routing s) :
      Reachable routing ((respond routing wire transport request).exec s).2
  | expireIdle {s : Forwarder} (previous : Reachable routing s) :
      Reachable routing ((Forwarder.expireIdle : Run Forwarder NoReply Unit).exec s).2

/-- In every state of a handler the cached stream leads to its own address. -/
theorem Reachable.cacheOk {routing : RoutingTable} {s : Forwarder} (h : Reachable routing s) :
    Forwarder.CacheOk UpstreamAddress.Leads s := by
  induction h with
  | fresh env => exact fun _ h => nomatch h
  | respond wire transport request _ ih =>
    exact (respond_logs routing wire transport request UpstreamAddress.leads_socket _ ih).1
  | expireIdle _ ih =>
    have hexpire := @Forwarder.expireIdle_traced NoReply UpstreamAddress.Leads
      (fun _ => False) fun _ => False
    exact (hexpire _ ih).1

/-- The messages that are not forwarded. -/
inductive Unforwarded (routing : RoutingTable) (wire : List UInt8) : Prop
  | unparsable {e : Dns.ParseError} (parse : Packet.parse wire = .error e)
  | rejected {p : Packet} {code : ResponseCode} (parse : Packet.parse wire = .ok p)
      (reject : p.validateQuery = .reject code)
  | ignored {p : Packet} (parse : Packet.parse wire = .ok p) (ignore : p.validateQuery = .ignore)
  | answered {p : Packet} {q : Query} {record : LocalRecord} (parse : Packet.parse wire = .ok p)
      (forward : p.validateQuery = .forward q)
      (select : routing.select q.name = .localRecord record)
  | unmatched {p : Packet} {q : Query} (parse : Packet.parse wire = .ok p)
      (forward : p.validateQuery = .forward q) (select : routing.select q.name = .unmatched)

section

variable {routing : RoutingTable} {wire : List UInt8} {q q' : Query} {group group' : UpstreamGroup}

/-- A message is sent to one group at most, with one query. -/
theorem Forwards.unique (h : Forwards routing wire q group) (h' : Forwards routing wire q' group') :
    q = q' ∧ group = group' := by
  have hpacket : q.packet = q'.packet := Except.ok.inj (h.parse.symm.trans h'.parse)
  have hforward := h.forward
  rw [hpacket, h'.forward] at hforward
  cases hforward
  refine ⟨rfl, ?_⟩
  rcases h.select with hs | ⟨route, hs, rfl⟩
  · rcases h'.select with hs' | ⟨route', hs', rfl⟩
    · rw [hs] at hs'
      cases hs'
      rfl
    · rw [hs] at hs'
      cases hs'
  · rcases h'.select with hs' | ⟨route', hs', rfl⟩
    · rw [hs] at hs'
      cases hs'
    · rw [hs] at hs'
      cases hs'
      rfl

/-- A message that is sent to a group is not left to the handler. -/
theorem Forwards.not_unforwarded (h : Forwards routing wire q group) :
    ¬ Unforwarded routing wire := by
  intro hun
  have hparse := h.parse
  have hforward := h.forward
  have hselect : ∀ record, routing.select q.name ≠ .localRecord record ∧
      routing.select q.name ≠ .unmatched := by
    intro record
    rcases h.select with hs | ⟨route, hs, -⟩ <;> simp [hs]
  -- Each case needs a message that is not forwarded, or a name that is not routed.
  cases hun with
  | unparsable parse =>
    rw [hparse] at parse
    cases parse
  | rejected parse reject =>
    rw [hparse] at parse
    cases parse
    rw [hforward] at reject
    cases reject
  | ignored parse ignore =>
    rw [hparse] at parse
    cases parse
    rw [hforward] at ignore
    cases ignore
  | answered parse forward select =>
    rw [hparse] at parse
    cases parse
    rw [hforward] at forward
    cases forward
    exact (hselect _).1 select
  | @unmatched p q' parse forward select =>
    rw [hparse] at parse
    cases parse
    rw [hforward] at forward
    cases forward
    exact (hselect ⟨q.name, ⟨0, 0, 0, 0⟩, 0⟩).2 select

/-- A message is forwarded to some group, or it is not forwarded. -/
theorem unforwarded_or_forwards (routing : RoutingTable) (wire : List UInt8) :
    Unforwarded routing wire ∨ ∃ q group, Forwards routing wire q group := by
  cases hparse : Packet.parse wire with
  | error e => exact .inl (.unparsable hparse)
  | ok p =>
    cases hvalidate : p.validateQuery with
    | reject code => exact .inl (.rejected hparse hvalidate)
    | ignore => exact .inl (.ignored hparse hvalidate)
    | forward q =>
      obtain ⟨rfl, -⟩ := Packet.validateQuery_eq_forward_iff.mp hvalidate
      cases hselect : routing.select q.name with
      | localRecord record => exact .inl (.answered hparse hvalidate hselect)
      | unmatched => exact .inl (.unmatched hparse hvalidate hselect)
      | default group => exact .inr ⟨q, group, hparse, hvalidate, .inl hselect⟩
      | routed route => exact .inr ⟨q, _, hparse, hvalidate, .inr ⟨route, hselect, rfl⟩⟩

/-- The log of a request for a group is a walk over its servers. -/
theorem RespondLog.walks {transport : Transport} {request : Deadline}
    {r : Except NoReply (List UInt8)} {new : List Event}
    (h : RespondLog UpstreamAddress.Leads routing wire transport request r new)
    (hforwards : Forwards routing wire q group) : Walks group.servers new := by
  cases h with
  | alone quiet _ => exact .stops quiet
  | forwarded chosen before walk after _ =>
    obtain ⟨rfl, rfl⟩ := hforwards.unique chosen
    exact (walk.walks.prepend before).append after

/-- The log of any other request is quiet. -/
theorem RespondLog.quiet {transport : Transport} {request : Deadline}
    {r : Except NoReply (List UInt8)} {new : List Event}
    (h : RespondLog UpstreamAddress.Leads routing wire transport request r new)
    (hun : Unforwarded routing wire) : ∀ e ∈ new, e.Quiet := by
  cases h with
  | alone quiet _ => exact quiet
  | forwarded chosen _ _ _ _ => exact (chosen.not_unforwarded hun).elim

end

/-- Route isolation. Whatever a handler did before and whatever its peers do, the events of
one request concern servers of the group selected for the client's question only. They are
visited in configured order, none twice, and the next one only after an outcome that
advances. The default group is selected only when no rule matches, and a message that is
not forwarded contacts nobody. -/
theorem respond_isolated {default : Option UpstreamGroup} {routes : List Route}
    {localRecords : List LocalRecord} {table : RoutingTable}
    (htable : RoutingTable.new default routes localRecords = .ok table) {s : Forwarder}
    (hs : Reachable table s) (wire : List UInt8) (transport : Transport) (request : Deadline) :
    ∃ new, ((respond table wire transport request).exec s).2.env.log = s.env.log ++ new ∧
      (Unforwarded table wire ∨ ∃ q group, Forwards table wire q group) ∧
      (Unforwarded table wire → ∀ e ∈ new, e.peer = none) ∧
      (∀ q group, Forwards table wire q group →
        (∀ e ∈ new, ∀ p, e.peer = some p → ∃ a ∈ group.servers, p = a.socket) ∧
        visits new <+: group.servers ∧ group.servers.Nodup ∧ Walks group.servers new ∧
        (table.select q.name = .default group →
          ∀ rule ∈ rulesOf routes localRecords, ¬ rule.Matches q.name)) := by
  obtain ⟨-, new, hlog, inner, h, -⟩ :=
    respond_logs table wire transport request UpstreamAddress.leads_socket s hs.cacheOk
  refine ⟨new, hlog, unforwarded_or_forwards table wire,
    fun hun e he => (h.quiet hun e he).peer_eq_none, fun q group hforwards => ?_⟩
  have hwalks := h.walks hforwards
  refine ⟨hwalks.peer_mem, hwalks.visits_ordered, group.distinct, hwalks,
    fun hselect rule hrule => ?_⟩
  obtain ⟨-, hroutes, hlocal⟩ := RoutingTable.of_new_eq_ok htable
  have hmem := (mem_rulesOf_iff_of_perm hroutes hlocal rule).mpr hrule
  exact (RoutingTable.select_eq_group_iff.mp hselect).2 rule hmem

/-- A table with a route for `lan`, a record for `a.lan` and a route for `b.a.lan`. -/
def nestedTable : RoutingTable where
  default := some RoutingTable.outerGroup
  routes := [RoutingTable.deepRoute, RoutingTable.lanRoute]
  localRecords := [RoutingTable.nestedRecord]
  distinct := by unfold DistinctSuffixes; decide
  routesSorted := by decide
  localSorted := by decide

/-- A query for the address of `c.lan`. -/
def nestedQuery : Packet where
  wire := [0x12, 0x34, 1, 0, 0, 1, 0, 0, 0, 0, 0, 0, 1, 0x63, 3, 0x6c, 0x61, 0x6e, 0, 0, 1, 0, 1]
  header := ⟨⟨0x1234⟩, 0x0100, ⟨1, 0, 0, 0⟩⟩
  questions := [⟨⟨[[0x63], [0x6c, 0x61, 0x6e]]⟩, .a, .in⟩]
  edns := none
  authenticated := false
  cookie := none

/-- A response to it with these flags. -/
def nestedResponse (id code : UInt8) : List UInt8 :=
  [0, id, 0x81, code, 0, 1, 0, 0, 0, 0, 0, 0, 1, 0x63, 3, 0x6c, 0x61, 0x6e, 0, 0, 1, 0, 1]

/-- A world in which the first server answers SERVFAIL and the second NOERROR. -/
def nestedWorld : Forwarder where
  tcp := none
  env := {
    clock := List.replicate 24 ⟨false, 5⟩
    entropy := [.ok 1, .ok 2]
    udp := [⟨none, none, none, none, [.datagram (nestedResponse 1 0x82)]⟩,
      ⟨none, none, none, none, [.datagram (nestedResponse 2 0x80)]⟩]
    tcp := []
    log := [] }

/-- A query for a name below the route goes to the two servers of the route in order, and to
nobody else: not to the default server, although the first server fails. -/
theorem respond_isolated_nested :
    ∃ new, ((respond nestedTable nestedQuery.wire .udp ⟨5000000000⟩).exec
        nestedWorld).2.env.log = new ∧
      visits new = [RoutingTable.lanServer, RoutingTable.spareServer] ∧
      Walks [RoutingTable.lanServer, RoutingTable.spareServer] new ∧
      ∀ e ∈ new, ∀ p, e.peer = some p →
        ∃ a ∈ [RoutingTable.lanServer, RoutingTable.spareServer], p = a.socket := by
  have htable : RoutingTable.new (some RoutingTable.outerGroup)
      [RoutingTable.lanRoute, RoutingTable.deepRoute] [RoutingTable.nestedRecord] =
        .ok nestedTable := rfl
  obtain ⟨new, hlog, -, -, hforwards⟩ := respond_isolated htable (.fresh nestedWorld.env)
    nestedQuery.wire .udp ⟨5000000000⟩
  have hselect : nestedTable.select ⟨[[0x63], [0x6c, 0x61, 0x6e]]⟩
      = .routed RoutingTable.lanRoute := by
    decide
  obtain ⟨hpeers, -, -, hwalks, -⟩ := hforwards
    ⟨nestedQuery, ⟨⟨[[0x63], [0x6c, 0x61, 0x6e]]⟩, .a, .in⟩⟩ RoutingTable.lanGroup
    ⟨by decide +kernel, by decide +kernel, .inr ⟨_, hselect, rfl⟩⟩
  refine ⟨new, hlog, ?_, hwalks, hpeers⟩
  refine Eq.trans (congrArg visits hlog.symm) ?_
  decide +kernel

end RequestHandler

end Sederial
