import Sederial.Proofs.ReplyShape

/-!
# `Sederial.Proofs.CookiePolicy`: COOKIE options over whole runs

Four parts make the policy: the COOKIE of a reply belongs to the client, a query with a
server cookie is answered by a server or not at all, local replies have no COOKIE, and after
a BADCOOKIE a server has to show one. `respond_cookiePolicy` states them together for every
run of `respond`.

The first three follow from where a reply comes from (`RespondLog.origin`). The last one is
about the log: `afterBadcookie` scans it for the responses it speaks of.
-/

set_option autoImplicit false

namespace Sederial

open Sederial.Lib
open Sederial.Dns (CookieField Packet Query Response plainChallenge plainQuery setId)
open Sederial.Dns.Cookie (responseCookie)

/-! ### After a BADCOOKIE -/

namespace Event

/-- The responses that were accepted after a BADCOOKIE of the same visit. The flag says
whether the visit under way has had one. -/
def afterBadcookie : Bool → List Event → List Response
  | _, [] => []
  | _, .visit _ :: events => afterBadcookie false events
  | seen, .accept _ response :: events =>
    (if seen then [response] else []) ++
      afterBadcookie (seen || response.responseCode = .badCookie) events
  | seen, _ :: events => afterBadcookie seen events

variable {seen : Bool} {es es' : List Event} {x : Response}

/-- A response accepted behind a BADCOOKIE one is an accepted one. -/
theorem accepted_of_afterBadcookie (h : x ∈ afterBadcookie seen es) : x ∈ accepted es := by
  induction es generalizing seen with
  | nil => cases h
  | cons e es ih =>
    cases e with
    | accept peer response =>
      rcases List.mem_append.mp h with h | h
      · split at h
        · rw [List.mem_singleton.mp h]
          exact List.mem_cons_self
        · cases h
      · exact List.mem_cons_of_mem _ (ih h)
    | _ => exact ih h

/-- In one visit, the first response that is accepted does not follow a BADCOOKIE. -/
theorem tail_of_afterBadcookie (hvisit : ∀ e ∈ es, ∀ address, e ≠ .visit address)
    (h : x ∈ afterBadcookie false es) : x ∈ (accepted es).tail := by
  induction es with
  | nil => cases h
  | cons e es ih =>
    have hrest : ∀ e ∈ es, ∀ address, e ≠ .visit address :=
      fun e he => hvisit e (List.mem_cons_of_mem _ he)
    cases e with
    | visit address => exact (hvisit _ List.mem_cons_self address rfl).elim
    | accept peer response => exact accepted_of_afterBadcookie h
    | _ => exact ih hrest h

/-- A response behind a BADCOOKIE one in a log of two parts is so in one of them. -/
theorem afterBadcookie_append (h : x ∈ afterBadcookie seen (es ++ es')) :
    x ∈ afterBadcookie seen es ∨ ∃ seen', x ∈ afterBadcookie seen' es' := by
  induction es generalizing seen with
  | nil => exact .inr ⟨seen, h⟩
  | cons e es ih =>
    cases e with
    | accept peer response =>
      rcases List.mem_append.mp h with h | h
      · exact .inl (List.mem_append_left _ h)
      · exact (ih h).imp_left (List.mem_append_right _)
    | _ => exact ih h

/-- No quiet event accepts a response. -/
theorem Quiet.ne_accept {e : Event} (h : e.Quiet) (peer : SocketAddr) (response : Response) :
    e ≠ .accept peer response := by
  rintro rfl
  rcases h with h | ⟨_, h⟩
  · exact h
  · cases h

/-- A quiet log accepts nothing behind a BADCOOKIE response. -/
theorem not_afterBadcookie_of_quiet (hquiet : ∀ e ∈ es, e.Quiet) :
    x ∉ afterBadcookie seen es := by
  intro h
  obtain ⟨e, he, hx⟩ := List.mem_filterMap.mp (accepted_of_afterBadcookie h)
  have hne := (hquiet e he).ne_accept
  cases e <;> first | exact hne _ _ rfl | cases hx

end Event

open Event (afterBadcookie)

namespace Forwarder

/-- Among the events of a turn, only those of its visit can follow a BADCOOKIE. -/
theorem afterBadcookie_turn {q : Query} {K : SocketAddr → Prop}
    {r : Except ForwardError Response} {a : UpstreamAddress} {seen : Bool}
    {pre body rest : List Event} {x : Response} (hpre : ∀ e ∈ pre, e.Quiet)
    (hvisit : VisitLog q K r body)
    (h : x ∈ afterBadcookie seen (pre ++ .visit a :: (body ++ rest))) :
    q.Answered true x ∨ ∃ seen', x ∈ afterBadcookie seen' rest := by
  rcases Event.afterBadcookie_append h with h | ⟨_, h⟩
  · exact (Event.not_afterBadcookie_of_quiet hpre h).elim
  · have h : x ∈ afterBadcookie false (body ++ rest) := h
    rcases Event.afterBadcookie_append h with h | h
    · exact .inl (hvisit.later x
        (Event.tail_of_afterBadcookie (fun e he => (hvisit.events e he).ne_visit) h))
    · exact .inr h

/-- Along a walk, every response that follows a BADCOOKIE of its visit was accepted for a
query that insists on a COOKIE. -/
theorem ForwardLog.answered_afterBadcookie {q : Query}
    {T : UpstreamAddress → SocketAddr → Prop} {request : Deadline}
    {servers : List UpstreamAddress} {last : ForwardError} {relayed : Option Response}
    {r : Except ForwardError Response} {new : List Event}
    (h : ForwardLog q T request servers last relayed r new) {seen : Bool} {x : Response}
    (hx : x ∈ afterBadcookie seen new) : q.Answered true x := by
  -- Deadline checks and outcomes are not responses.
  have hcheck : ∀ {reading : Option Reading} {seen : Bool},
      x ∉ afterBadcookie seen [Event.check reading] := fun h => nomatch h
  induction h generalizing seen with
  | expires _ => exact (hcheck hx).elim
  | relays _ => exact (hcheck hx).elim
  | gives _ => exact (hcheck hx).elim
  | unstarted start => exact (Event.not_afterBadcookie_of_quiet start.quiet hx).elim
  | cancelled start visit =>
    rcases afterBadcookie_turn start.quiet visit hx with h | ⟨seen', h⟩
    · exact h
    · cases h
  | failed start visit _ _ ih =>
    rcases afterBadcookie_turn start.quiet visit hx with h | ⟨seen', h⟩
    · exact h
    · exact ih h
  | late start visit _ =>
    rcases afterBadcookie_turn start.quiet visit hx with h | ⟨seen', h⟩
    · exact h
    · cases h
  | returns start visit _ _ =>
    rcases afterBadcookie_turn start.quiet visit hx with h | ⟨seen', h⟩
    · exact h
    · cases h
  | advances start visit _ _ _ ih =>
    rcases afterBadcookie_turn start.quiet visit hx with h | ⟨seen', h⟩
    · exact h
    · exact ih h

end Forwarder

namespace RequestHandler

variable {routing : RoutingTable} {wire reply : List UInt8} {transport : Transport}

/-! ### Local replies -/

/-- The replies the handler generates: local answers and errors, and the SERVFAIL after a
failed exchange. -/
def Generated (routing : RoutingTable) (wire : List UInt8) (transport : Transport)
    (reply : List UInt8) : Prop :=
  LocalReply routing wire reply ∨
    ∃ q group e, Forwards routing wire q group ∧ Relays q transport (.error e) reply

/-- The code's own replies carry no cookie. -/
theorem Generated.cookie_eq_none (h : Generated routing wire transport reply) {p : Packet}
    (hp : Packet.parse (finished routing reply) = .ok p) : p.cookie = none := by
  obtain ⟨header, p₀, hp₀, hnone⟩ :
      ∃ header p₀, Dns.RepliesTo wire header reply p₀ ∧ p₀.cookie = none := by
    rcases h with hlocal | ⟨q, group, e, hchosen, hrelays⟩
    · obtain ⟨header, p₀, hp₀, hmade⟩ := hlocal.repliesTo
      exact ⟨header, p₀, hp₀, hmade.cookie⟩
    · obtain ⟨p₀, hp₀, hcookie⟩ := hrelays.repliesTo hchosen fun x hx => nomatch hx
      rcases hcookie with hnone | ⟨response, c, h, -⟩
      · exact ⟨_, p₀, hp₀, hnone⟩
      · cases h
  obtain ⟨p', hp', hcookie, -⟩ := finished_repliesTo hp₀ routing
  rw [hp'.parse] at hp
  cases hp
  rw [hcookie, hnone]

/-- A query with a server cookie has no local reply. -/
theorem not_generated {p : Packet} (hp : Packet.parse wire = .ok p)
    (hserver : p.suppliesServerCookie = true) (reply : List UInt8) :
    ¬ Generated routing wire transport reply := by
  have herror : ∀ code, p.localErrorReply code = none := fun code => if_pos hserver
  have hanswer : ∀ address ttl, p.localAReply address ttl = none := fun _ _ => if_pos hserver
  rintro (h | ⟨q, group, e, hchosen, hrelays⟩)
  · cases h with
    | malformed parse _ =>
      rw [Packet.parse, parse] at hp
      cases hp
    | rejected parse _ made =>
      rw [hp] at parse
      cases parse
      rw [herror] at made
      cases made
    | answered parse _ _ made =>
      rw [hp] at parse
      cases parse
      rw [Query.localAReply, hanswer] at made
      cases made
    | unmatched parse _ _ made =>
      rw [hp] at parse
      cases parse
      rw [Query.errorReply, herror] at made
      cases made
  · cases hrelays with
    | failed made =>
      have hparse := hchosen.parse
      rw [hp] at hparse
      cases hparse
      rw [Query.errorReply, herror] at made
      cases made

/-! ### Every run -/

/-- The reply was made from a response that was accepted for the client's query among the
events. -/
def FromUpstream (routing : RoutingTable) (wire : List UInt8) (transport : Transport)
    (events : List Event) (reply : List UInt8) : Prop :=
  ∃ q group response, Forwards routing wire q group ∧ response ∈ Event.accepted events ∧
    q.Answered false response ∧ Relays q transport (.ok response) reply

/-- A reply is one of the code's own or comes from the response that an upstream server gave. -/
theorem RespondLog.generated_or_fromUpstream {T : UpstreamAddress → SocketAddr → Prop}
    {request : Deadline} {new : List Event}
    (h : RespondLog T routing wire transport request (.ok reply) new) :
    Generated routing wire transport reply ∨ FromUpstream routing wire transport new reply := by
  rcases h.origin with hlocal | ⟨q, group, outcome, hchosen, hrelays, hanswered⟩
  · exact .inl (.inl hlocal)
  · cases outcome with
    | error e => exact .inl (.inr ⟨q, group, e, hchosen, hrelays⟩)
    | ok response =>
      obtain ⟨hresponse, hmem⟩ := hanswered response rfl
      exact .inr ⟨q, group, response, hchosen, hmem, hresponse, hrelays⟩

/-- The COOKIE data belongs to the client of the query: it starts with its client cookie. -/
def CookieOf (query : Packet) (cookie : List UInt8) : Prop :=
  ∃ client, responseCookie query = some client ∧ cookie.take 8 = client.take 8 ∧
    16 ≤ cookie.length ∧ cookie.length ≤ 40

/-- A cookie in a relayed reply is the client's own, followed by the server part it was given. -/
theorem FromUpstream.cookieOf {new : List Event}
    (h : FromUpstream routing wire transport new reply) {p : Packet}
    (hp : Packet.parse (finished routing reply) = .ok p) {field : CookieField}
    (hfield : p.cookie = some field) :
    ∃ query cookie, Packet.parse wire = .ok query ∧ responseCookie p = some cookie ∧
      CookieOf query cookie := by
  obtain ⟨q, group, response, hchosen, -, hanswered, hrelays⟩ := h
  obtain ⟨p₀, hp₀, hcookie₀⟩ := hrelays.repliesTo hchosen fun x hx => by
    cases hx
    exact hanswered
  obtain ⟨p', hp', hcookie, hdata, -⟩ := finished_repliesTo hp₀ routing
  rw [hp'.parse] at hp
  cases hp
  rw [hcookie] at hfield
  rcases hcookie₀ with hnone | ⟨x, c, hx, hc, hresponse⟩
  · rw [hnone] at hfield
    cases hfield
  · cases hx
    rcases hanswered.cookie (Packet.parsed_of_parse hchosen.parse) with ⟨hnone, -⟩ |
      ⟨received, client, hreceived, hclient, hmatch⟩
    · rw [responseCookie, hnone] at hresponse
      cases hresponse
    · rw [hresponse] at hreceived
      cases hreceived
      exact ⟨q.packet, c, hchosen.parse, hdata.trans hc, client, hclient, hmatch⟩

/-- COOKIE policy over whole runs. Whatever the table, the state of the handler and its peers
do: a reply has a COOKIE only if the client's query has one, and it then starts with the client
cookie and has a server cookie; a query with a server cookie gets a reply made from an accepted
response and never a local one; local replies have no COOKIE; and every response accepted after a
BADCOOKIE of its visit carries a COOKIE that belongs to the client. -/
theorem respond_cookiePolicy (routing : RoutingTable) (wire : List UInt8) (transport : Transport)
    (request : Deadline) (s : Forwarder) :
    ∃ new, ((respond routing wire transport request).exec s).2.env.log = s.env.log ++ new ∧
      (∀ r, ((respond routing wire transport request).exec s).1 = .ok r →
        (∃ p, Packet.parse r = .ok p ∧ ∀ field, p.cookie = some field →
          ∃ query cookie, Packet.parse wire = .ok query ∧ responseCookie p = some cookie ∧
            CookieOf query cookie) ∧
        ∃ reply, r = finished routing reply ∧
          (Generated routing wire transport reply ∨
            FromUpstream routing wire transport new reply) ∧
          ∀ query, Packet.parse wire = .ok query → query.suppliesServerCookie = true →
            FromUpstream routing wire transport new reply ∧
              ¬ Generated routing wire transport reply) ∧
      (∀ reply p, Generated routing wire transport reply →
        Packet.parse (finished routing reply) = .ok p → p.cookie = none) ∧
      ∀ response ∈ afterBadcookie false new, ∃ query cookie, Packet.parse wire = .ok query ∧
        responseCookie response.packet = some cookie ∧ CookieOf query cookie := by
  obtain ⟨-, new, hnew, inner, hlog, hreply⟩ := respond_logs (T := fun _ _ => True) routing wire
    transport request (fun _ => trivial) s fun _ _ => trivial
  refine ⟨new, hnew, fun r hr => ?_, fun reply p hgenerated hp => hgenerated.cookie_eq_none hp,
    fun response hresponse => ?_⟩
  · obtain ⟨reply, rfl, rfl⟩ := hreply r hr
    have horigin := hlog.generated_or_fromUpstream
    obtain ⟨header, p, hp⟩ := respond_repliesTo hr
    refine ⟨⟨p, hp.parse, fun field hfield => ?_⟩, reply, rfl, horigin,
      fun query hquery hserver => ?_⟩
    -- A reply of the code's own has no cookie, and a relayed one has the cookie of the response.
    · rcases horigin with hgenerated | hupstream
      · rw [hgenerated.cookie_eq_none hp.parse] at hfield
        cases hfield
      · exact hupstream.cookieOf hp.parse hfield
    -- A query with a server cookie is never answered by the code itself.
    · have hnot : ¬ Generated routing wire transport reply := not_generated hquery hserver reply
      exact ⟨horigin.resolve_left hnot, hnot⟩
  · cases hlog with
    | alone quiet _ => exact (Event.not_afterBadcookie_of_quiet quiet hresponse).elim
    | @forwarded q group outcome r pre body post chosen before walk after _ =>
      -- What is accepted behind BADCOOKIE is accepted for a retry, which asks for the cookie.
      have hanswered : q.Answered true response := by
        rcases Event.afterBadcookie_append hresponse with hresponse | ⟨_, hresponse⟩
        · rcases Event.afterBadcookie_append hresponse with hresponse | ⟨_, hresponse⟩
          · exact (Event.not_afterBadcookie_of_quiet before hresponse).elim
          · exact walk.answered_afterBadcookie hresponse
        · exact (Event.not_afterBadcookie_of_quiet after hresponse).elim
      rcases hanswered.cookie (Packet.parsed_of_parse chosen.parse) with ⟨-, hnot⟩ |
        ⟨received, client, hreceived, hclient, hmatch⟩
      · cases hnot
      · exact ⟨q.packet, received, chosen.parse, hreceived, client, hclient, hmatch⟩

/-- A BADCOOKIE, the answer to the retry, and the reply that returns its COOKIE. -/
theorem respond_cookiePolicy_plainQuery :
    afterBadcookie false ((respond defaultTable plainQuery.wire .udp ⟨5000000000⟩).exec
        (Forwarder.challenged (setId plainChallenge.wire ⟨1⟩)
          Forwarder.plainAnswer.wire)).2.env.log = [⟨Forwarder.plainAnswer⟩] ∧
      ∃ cookie, responseCookie Forwarder.plainAnswer = some cookie ∧
        CookieOf plainQuery cookie := by
  have hrun : afterBadcookie false ((respond defaultTable plainQuery.wire .udp ⟨5000000000⟩).exec
      (Forwarder.challenged (setId plainChallenge.wire ⟨1⟩)
        Forwarder.plainAnswer.wire)).2.env.log = [⟨Forwarder.plainAnswer⟩] := by
    decide +kernel
  have hquery : Packet.parse plainQuery.wire = .ok plainQuery := by decide +kernel
  obtain ⟨new, hnew, -, -, hlater⟩ := respond_cookiePolicy defaultTable plainQuery.wire .udp
    ⟨5000000000⟩ (Forwarder.challenged (setId plainChallenge.wire ⟨1⟩) Forwarder.plainAnswer.wire)
  have hmem : ⟨Forwarder.plainAnswer⟩ ∈ afterBadcookie false new := by
    rw [hnew] at hrun
    exact hrun ▸ List.mem_singleton_self _
  obtain ⟨query, cookie, hparse, hcookie, hof⟩ := hlater ⟨Forwarder.plainAnswer⟩ hmem
  rw [hquery] at hparse
  cases hparse
  exact ⟨hrun, cookie, hcookie, hof⟩

end RequestHandler

end Sederial
