import Sederial.Proofs.CookiePolicy
import Sederial.Proofs.GeneratedReply
import Sederial.Proofs.Isolation

/-!
# `Sederial.Proofs.UdpLimit`: UDP replies fit, and TC says when they did not

`replyLimit` is the size a client can take over UDP. Local replies are below it whatever the
client advertises (`LocallyMade.length`), a relayed response is below it because it was compared
with it, and the TC reply is generated like a local one.

A reply to a forwarded query is made from what `Forwarder::forward` returns in this run
(`forwardedResult`, `respond_relays`), and from nothing else. So `respond_udpLimit` can say of every
run of `respond` when TC is set: exactly when `forward` returned a response that does not fit. It
also says what a TC reply tells about the response it stands for.

The code of that response can have twelve bits. It comes back whole because a response with an
OPT record is only accepted for a query with one (`Answered.fits`).
-/

set_option autoImplicit false

namespace Sederial

open Sederial.Lib
open Sederial.Dns (Header Packet Query RepliesTo Response ResponseCode rootQuery)
open Sederial.Dns.Cookie (responseCookie)

/-! ### The code of a response -/

/-- A response code has at most twelve bits, and four without an OPT record. -/
theorem Dns.Packet.responseCode_bits (p : Packet) :
    ∃ value : UInt16, p.responseCode = .fromWire value ∧ value.toNat < 4096 ∧
      (p.edns = none → value.toNat < 16) := by
  have hlow : (p.header.flags &&& Dns.rcodeMask).toNat < 2 ^ 4 := by
    rw [UInt16.toNat_and]
    exact Nat.and_lt_two_pow _ (by decide)
  cases hedns : p.edns with
  | none =>
    refine ⟨0 ||| (p.header.flags &&& Dns.rcodeMask), ?_, ?_, fun _ => ?_⟩
    · rw [responseCode, hedns]
    · rw [UInt16.zero_or]
      omega
    · rw [UInt16.zero_or]
      exact hlow
  | some opt =>
    refine ⟨opt.extendedRcode.toUInt16 <<< 4 ||| (p.header.flags &&& Dns.rcodeMask), ?_, ?_,
      fun h => nomatch h⟩
    · rw [responseCode, hedns]
    · have hhigh : (opt.extendedRcode.toUInt16 <<< 4).toNat < 2 ^ 12 := by
        have hbyte : ∀ i : Fin 256, ((UInt8.ofFin i).toUInt16 <<< 4).toNat < 2 ^ 12 := by
          decide +kernel
        exact hbyte opt.extendedRcode.toFin
      rw [UInt16.toNat_or]
      exact Nat.or_lt_two_pow hhigh (by omega)

/-- A message with a cookie has an OPT record to carry it. -/
theorem Dns.Packet.Parsed.edns_of_cookie {p : Packet} (h : p.Parsed) (hcookie : p.cookie.isSome) :
    p.edns.isSome := by
  obtain ⟨d, -, hp⟩ := Packet.parsed_iff.mp h
  rw [hp] at hcookie ⊢
  unfold Dns.Derivation.packet at hcookie ⊢
  cases hopt : d.opt with
  | none => simp [hopt] at hcookie
  | some opt => rfl

section

variable {q : Query} {required : Bool} {response : Response}

/-- A response that answers has an OPT record only where the query has one. -/
theorem Dns.Query.Answered.edns (h : q.Answered required response)
    (hsome : response.packet.edns.isSome) : q.packet.edns.isSome := by
  obtain ⟨s, hresent, haccepts, -, -⟩ := h
  rw [← hresent.edns]
  exact haccepts.corresponds.edns hsome

/-- What the TC reply says about the response it stands for. -/
structure TruncatesFor (q : Query) (response : Response) (p : Packet) : Prop where
  id : p.header.id = q.id
  questions : p.questions = [q.question]
  answers : p.header.counts.answers = 0
  authorities : p.header.counts.authorities = 0
  code : p.responseCode = response.responseCode
  opt : p.edns.isSome ↔ q.packet.edns.isSome
  dnssecOk : ∀ made ∈ p.edns, ∀ own ∈ q.packet.edns, made.dnssecOk = own.dnssecOk
  present : p.cookie.isSome ↔ response.packet.cookie.isSome
  cookie : responseCookie p = responseCookie response.packet

variable (h : q.Answered required response) (hq : q.packet.Parsed)
  (hforward : q.packet.Forwardable q.question)

include h

/-- The code of an accepted response fits into the TC reply. -/
theorem Dns.Query.Answered.fits {value : UInt16} (hlt : value.toNat < 4096)
    (hlow : response.packet.edns = none → value.toNat < 16) :
    Dns.FitsReply (.fromWire value) (q.packet.truncatedOpt response) := by
  unfold Dns.FitsReply
  rw [Dns.ResponseCode.wire_fromWire]
  cases hedns : response.packet.edns with
  | none => exact .inl (hlow hedns)
  | some opt =>
    have hsome := h.edns (by rw [hedns]; rfl)
    refine .inr ⟨?_, hlt⟩
    obtain ⟨own, hown⟩ := Option.isSome_iff_exists.mp hsome
    simp [Packet.truncatedOpt, hown, Dns.generatedOpt]

include hq hforward

/-- The truncated reply to a query keeps to 512 bytes, sets TC and says what it stands for. -/
theorem Dns.Query.Answered.truncates :
    ∃ p, RepliesTo q.packet.wire q.packet.header (q.truncatedReply response) p ∧
      (q.truncatedReply response).length ≤ 512 ∧ p.header.truncated = true ∧
      TruncatesFor q response p := by
  obtain ⟨p, hp, has⟩ := h.truncated_repliesTo hq hforward
  obtain ⟨value, hvalue, hlt, hlow⟩ := response.packet.responseCode_bits
  -- The COOKIE of the response reaches the reply: it implies an OPT record on both sides.
  have hcookie : (q.packet.truncatedOpt response).cookie = responseCookie response.packet := by
    cases hedns : q.packet.edns with
    | some opt => simp [Packet.truncatedOpt, hedns, Dns.generatedOpt, Dns.GeneratedOpt.cookie]
    | none =>
      have hnone : response.packet.cookie = none := by
        by_contra hsome
        have hparsed : response.packet.Parsed := by
          obtain ⟨_, -, -, hparsed, -⟩ := h
          exact hparsed
        have := h.edns (hparsed.edns_of_cookie (Option.isSome_iff_ne_none.mpr hsome))
        rw [hedns] at this
        cases this
      rw [responseCookie, hnone]
      simp [Packet.truncatedOpt, hedns, Dns.generatedOpt, Dns.GeneratedOpt.cookie]
  refine ⟨p, hp, has.length, Dns.replyFlags_truncated has.flags, {
    id := hp.id
    questions := by
      rw [has.questions, hq.map_reread, hforward.questions]
      rfl
    answers := by rw [has.counts]; rfl
    authorities := by rw [has.counts]
    code := ?_
    opt := ?_
    dnssecOk := ?_
    present := ?_
    cookie := has.cookie.trans hcookie }⟩
  · have hcode : response.responseCode = .fromWire value := hvalue
    rw [hcode] at has ⊢
    exact has.responseCode (h.fits hlt hlow)
  · rw [has.edns]
    cases hedns : q.packet.edns <;>
      simp [Packet.truncatedOpt, hedns, Dns.generatedOpt, Dns.GeneratedOpt.edns]
  · intro made hmade own hown
    rw [has.edns, Packet.truncatedOpt, Option.mem_def.mp hown] at hmade
    cases hmade
    rfl
  · constructor
    · intro hsome
      by_contra hnot
      have hnone : response.packet.cookie = none := Option.not_isSome_iff_eq_none.mp hnot
      have hunsigned := has.unsigned (by rw [hcookie, responseCookie, hnone])
      rw [hunsigned] at hsome
      cases hsome
    · intro hsome
      by_contra hnot
      have hnone : p.cookie = none := Option.not_isSome_iff_eq_none.mp hnot
      rcases h.cookie hq with ⟨hresponse, -⟩ | ⟨received, -, hreceived, -⟩
      · rw [hresponse] at hsome
        cases hsome
      · have hsame := has.cookie.trans (hcookie.trans hreceived)
        rw [responseCookie, hnone] at hsame
        cases hsame

end

namespace RequestHandler

/-- The most bytes a UDP reply to a message may have: 512, or what the client advertises between
512 and 1232. -/
def replyLimit (wire : List UInt8) : Nat :=
  match Packet.parse wire with
  | .error _ => 512
  | .ok p =>
    match p.edns with
    | none => 512
    | some opt => max 512 (min opt.udpSize.toNat 1232)

/-- No limit is below 512 bytes. -/
theorem le_replyLimit (wire : List UInt8) : 512 ≤ replyLimit wire := by
  unfold replyLimit
  split
  · exact Nat.le_refl _
  · split
    · exact Nat.le_refl _
    · exact Nat.le_max_left _ _

variable {routing : RoutingTable} {wire reply : List UInt8} {transport : Transport}

/-- A forwarded query has the limit that its bytes announce. -/
theorem Forwards.udpLimit_eq {q : Query} {group : UpstreamGroup}
    (h : Forwards routing wire q group) : q.udpLimit = replyLimit wire := by
  unfold replyLimit
  rw [h.parse]
  rfl

/-- The recursion flag leaves the length of a reply. -/
theorem length_finished (routing : RoutingTable) (reply : List UInt8) :
    (finished routing reply).length = reply.length := by
  unfold finished Dns.withoutRecursion
  split
  · rfl
  · exact List.length_modify _ _ _

/-- Local replies are small and complete. -/
theorem Generated.small (h : Generated routing wire transport reply) :
    ∃ p, Packet.parse (finished routing reply) = .ok p ∧ p.header.truncated = false ∧
      (finished routing reply).length ≤ 512 := by
  obtain ⟨header, p₀, hp₀, hmade⟩ :
      ∃ header p₀, RepliesTo wire header reply p₀ ∧ Dns.LocallyMade reply p₀ := by
    rcases h with hlocal | ⟨q, group, e, hchosen, hrelays⟩
    · exact hlocal.repliesTo
    · obtain ⟨-, hforward⟩ := Packet.validateQuery_eq_forward_iff.mp hchosen.forward
      rw [← Packet.wire_of_parse hchosen.parse]
      cases hrelays with
      | failed made =>
        exact ⟨_, (Packet.parsed_of_parse hchosen.parse).errorReply_repliesTo hforward.query made⟩
  obtain ⟨p, hp, -, -, htruncated⟩ := finished_repliesTo hp₀ routing
  refine ⟨p, hp.parse, htruncated.trans hmade.complete, ?_⟩
  rw [length_finished]
  exact hmade.length

/-- A table that forwards something has upstreams. -/
theorem Forwards.hasUpstreams {q : Query} {group : UpstreamGroup}
    (h : Forwards routing wire q group) : routing.hasUpstreams = true := by
  unfold RoutingTable.hasUpstreams
  rcases h.select with hselect | ⟨route, hselect, -⟩
  · obtain ⟨hdefault, -⟩ := RoutingTable.select_eq_group_iff.mp hselect
    rw [hdefault]
    rfl
  · have hselect : routing.select q.name = Rule.selection (.route route) := hselect
    have hlongest := RoutingTable.select_eq_selection_iff.mp hselect
    have hmem := RoutingTable.mem_rules_route.mp hlongest.mem
    cases hroutes : routing.routes with
    | nil =>
      rw [hroutes] at hmem
      cases hmem
    | cons a rest => simp

/-- Whatever reply was made from a response, it fits the limit over UDP, and TC says whether the
response did. -/
theorem Relays.fits {q : Query} {group : UpstreamGroup} {response : Response}
    (h : Relays q transport (.ok response) reply) (hchosen : Forwards routing wire q group)
    (hanswered : q.Answered false response) :
    ∃ p, Packet.parse (finished routing reply) = .ok p ∧
      (transport = .udp → (finished routing reply).length ≤ replyLimit wire) ∧
      (p.header.truncated = true ↔ transport = .udp ∧ replyLimit wire < response.wire.length) ∧
      (p.header.truncated = true → TruncatesFor q response p) := by
  obtain ⟨-, hforward⟩ := Packet.validateQuery_eq_forward_iff.mp hchosen.forward
  have hq := Packet.parsed_of_parse hchosen.parse
  have hfinished : finished routing reply = reply := if_pos hchosen.hasUpstreams
  have hlimit := hchosen.udpLimit_eq
  rw [hfinished]
  cases h with
  | truncated large =>
    obtain ⟨p, hp, hlength, htruncated, htruncates⟩ := hanswered.truncates hq hforward
    refine ⟨p, hp.parse, fun _ => hlength.trans (le_replyLimit wire), ?_, fun _ => htruncates⟩
    exact ⟨fun _ => ⟨large.1, hlimit ▸ large.2⟩, fun _ => htruncated⟩
  | relayed fits =>
    have hp := hanswered.relayed_repliesTo hq hforward
    -- A response that was accepted has TC clear.
    have hcomplete : response.packet.header.truncated = false := by
      obtain ⟨_, -, haccepts, -, -⟩ := hanswered
      exact haccepts.complete
    have hshort : transport = .udp → response.wire.length ≤ replyLimit wire := by
      intro hudp
      rw [← hlimit]
      exact Nat.not_lt.mp fun hlt => fits ⟨hudp, hlt⟩
    have hfalse : (response.packet.renumbered q.id).header.truncated = false := hcomplete
    refine ⟨_, hp.parse, fun hudp => ?_, ?_, fun htrue => ?_⟩
    · have hlong : 2 ≤ response.wire.length := by
        obtain ⟨_, -, -, hparsed, -⟩ := hanswered
        have := hparsed.length_le.1
        exact Nat.le_trans (by omega) this
      exact (Dns.length_setId q.id hlong).trans_le (hshort hudp)
    · rw [hfalse]
      refine ⟨fun h => (nomatch h), fun ⟨hudp, hlt⟩ => ?_⟩
      exact absurd (hshort hudp) (Nat.not_le.mpr hlt)
    · rw [hfalse] at htrue
      cases htrue

/-- What `Forwarder::forward` returns in a run of the handler. The call stands behind the first look
at the clock. -/
def forwardedResult (q : Query) (group : UpstreamGroup) (transport : Transport)
    (request : Deadline) (s : Forwarder) : Except ForwardError Response :=
  ((Forwarder.forward q group transport request).exec ((checkDeadline request).exec s).2).1

/-- What the handler relays is made from the result of `forward`. -/
theorem relay_relays {q : Query} {group : UpstreamGroup} {request : Deadline} {s : Forwarder}
    (h : ((relay q group transport request).exec s).1 = .ok reply) :
    Relays q transport ((Forwarder.forward q group transport request).exec s).1 reply := by
  obtain ⟨outcome, houtcome, h⟩ := Run.exec_bind_fst_eq_ok.mp h
  rw [Run.exec_attempt] at houtcome
  cases houtcome
  cases hforward : ((Forwarder.forward q group transport request).exec s).1 with
  | error e =>
    rw [hforward] at h
    cases e with
    | cancelled => cases h
    | _ =>
      obtain ⟨_, -, h⟩ := Run.exec_bind_fst_eq_ok.mp h
      cases hmade : q.errorReply .serverFailure with
      | none =>
        rw [hmade] at h
        cases h
      | some made =>
        rw [hmade] at h
        cases h
        exact .failed hmade
  | ok response =>
    rw [hforward] at h
    obtain ⟨_, -, h⟩ := Run.exec_bind_fst_eq_ok.mp h
    by_cases hlarge : transport = .udp ∧ response.wire.length > q.udpLimit
    · rw [if_pos hlarge] at h
      cases h
      exact .truncated hlarge
    · rw [if_neg hlarge] at h
      cases h
      exact .relayed hlarge

/-- Every reply to a forwarded query is made from the result of `forward` in the same run. -/
theorem respond_relays {q : Query} {group : UpstreamGroup} {request : Deadline} {s : Forwarder}
    (hchosen : Forwards routing wire q group)
    (h : ((respond routing wire transport request).exec s).1 = .ok reply) :
    Relays q transport (forwardedResult q group transport request s) reply := by
  obtain ⟨-, hforwardable⟩ := Packet.validateQuery_eq_forward_iff.mp hchosen.forward
  have hheader : Header.parse wire = .ok q.packet.header := by
    rw [← Packet.wire_of_parse hchosen.parse]
    exact Header.parse_eq_ok_iff.mpr (Packet.parsed_of_parse hchosen.parse).headerAt
  have hpacket : Packet.parseForReply wire = .ok q.packet :=
    Packet.parseForReply_eq_ok_iff.mpr hchosen.parse
  obtain ⟨inner, hinner, h⟩ := Run.exec_bind_fst_eq_ok.mp h
  obtain ⟨_, -, h⟩ := Run.exec_bind_fst_eq_ok.mp h
  rw [if_pos hchosen.hasUpstreams] at h
  cases h
  obtain ⟨_, -, hbody⟩ := Run.exec_bind_fst_eq_ok.mp hinner
  -- The message passes every check, so what is left is the call of `relay`.
  have hanswer : answer routing q transport request = relay q group transport request := by
    unfold answer
    rcases hchosen.select with hselect | ⟨route, hselect, rfl⟩
    · rw [hselect]
    · rw [hselect]
  simp only [hheader, hforwardable.query, hpacket, hchosen.forward, hanswer, ne_eq,
    not_true_eq_false, if_false] at hbody
  exact relay_relays hbody

/-- What `forward` returns in a run of the handler is an answer to the query. -/
theorem forwardedResult_answered {q : Query} {group : UpstreamGroup} {request : Deadline}
    {s : Forwarder} {response : Response} (hchosen : Forwards routing wire q group)
    (h : forwardedResult q group transport request s = .ok response) :
    q.Answered false response := by
  obtain ⟨-, hforwardable⟩ := Packet.validateQuery_eq_forward_iff.mp hchosen.forward
  have hlogs := Forwarder.forward_logs (T := fun _ _ => True) request (fun _ => trivial)
    (Packet.parsed_of_parse hchosen.parse) hforwardable.questions group transport
  obtain ⟨-, new, -, hlog⟩ := hlogs ((checkDeadline request).exec s).2 fun _ _ => trivial
  rcases hlog.answered h with hnone | ⟨hanswered, -⟩
  · cases hnone
  · exact hanswered

/-- A message that is not forwarded gets a reply that the handler makes by itself. -/
theorem Unforwarded.local {request : Deadline} {s : Forwarder} (hun : Unforwarded routing wire)
    (h : ((respond routing wire transport request).exec s).1 = .ok reply) :
    ∃ made, reply = finished routing made ∧ LocalReply routing wire made := by
  obtain ⟨-, new, -, inner, hlog, hreply⟩ := respond_logs (T := fun _ _ => True) routing wire
    transport request (fun _ => trivial) s fun _ _ => trivial
  obtain ⟨made, rfl, rfl⟩ := hreply reply h
  cases hlog with
  | alone quiet reply => exact ⟨made, rfl, reply made rfl⟩
  | forwarded chosen _ _ _ _ => exact absurd hun chosen.not_unforwarded

/-- UDP size limit and truncation. Whatever the table, the state of the handler and its peers do,
a UDP reply fits the limit of its request. A message is forwarded or it is not. If it is not, its
reply has TC clear. If it is, then its reply has TC clear when `forward` fails in this run, and when
`forward` returns a response, TC is set exactly when this response does not fit, which is never the
case over TCP. A reply with TC says what the response said. -/
theorem respond_udpLimit (routing : RoutingTable) (wire : List UInt8) (transport : Transport)
    (request : Deadline) (s : Forwarder) (r : List UInt8)
    (hr : ((respond routing wire transport request).exec s).1 = .ok r) :
    ∃ p, Packet.parse r = .ok p ∧
      (transport = .udp → r.length ≤ replyLimit wire) ∧
      (transport = .tcp → p.header.truncated = false) ∧
      (Unforwarded routing wire ∨ ∃ q group, Forwards routing wire q group) ∧
      (Unforwarded routing wire → p.header.truncated = false) ∧
      ∀ q group, Forwards routing wire q group →
        (∀ e, forwardedResult q group transport request s = .error e →
          p.header.truncated = false) ∧
        ∀ response, forwardedResult q group transport request s = .ok response →
          q.Answered false response ∧
          (p.header.truncated = true ↔
            transport = .udp ∧ replyLimit wire < response.wire.length) ∧
          (p.header.truncated = true → TruncatesFor q response p) := by
  rcases unforwarded_or_forwards routing wire with hun | ⟨q, group, hchosen⟩
  -- No server was asked, and the handler replies by itself.
  · obtain ⟨made, rfl, hmade⟩ := hun.local hr
    have hgenerated : Generated routing wire transport made := .inl hmade
    obtain ⟨p, hp, hcomplete, hlength⟩ := hgenerated.small
    refine ⟨p, hp, fun _ => hlength.trans (le_replyLimit wire), fun _ => hcomplete, .inl hun,
      fun _ => hcomplete, fun q group hchosen => ?_⟩
    exact absurd hun hchosen.not_unforwarded
  · have hrelays := respond_relays hchosen hr
    have hfinished : finished routing r = r := if_pos hchosen.hasUpstreams
    cases hresult : forwardedResult q group transport request s with
    -- `forward` fails, and the reply is `SERVFAIL`.
    | error e =>
      rw [hresult] at hrelays
      obtain ⟨p, hp, hcomplete, hlength⟩ :=
        Generated.small (.inr ⟨q, group, e, hchosen, hrelays⟩)
      rw [hfinished] at hp hlength
      refine ⟨p, hp, fun _ => hlength.trans (le_replyLimit wire), fun _ => hcomplete,
        .inr ⟨q, group, hchosen⟩, fun _ => hcomplete, fun q' group' hchosen' => ?_⟩
      obtain ⟨rfl, rfl⟩ := hchosen.unique hchosen'
      refine ⟨fun _ _ => hcomplete, fun response hok => ?_⟩
      rw [hresult] at hok
      cases hok
    -- `forward` returns a response, which is relayed or stands behind a TC reply.
    | ok response =>
      rw [hresult] at hrelays
      have hanswered := forwardedResult_answered hchosen hresult
      obtain ⟨p, hp, hlength, htruncated, htruncates⟩ := hrelays.fits hchosen hanswered
      rw [hfinished] at hp hlength
      refine ⟨p, hp, hlength, fun htcp => ?_, .inr ⟨q, group, hchosen⟩,
        fun hun => absurd hun hchosen.not_unforwarded, fun q' group' hchosen' => ?_⟩
      · by_contra hne
        have hudp := (htruncated.mp (Bool.not_eq_false _ ▸ hne)).1
        rw [htcp] at hudp
        cases hudp
      · obtain ⟨rfl, rfl⟩ := hchosen.unique hchosen'
        refine ⟨fun e herror => ?_, fun response' hok => ?_⟩
        · rw [hresult] at herror
          cases herror
        · rw [hresult] at hok
          cases hok
          exact ⟨hanswered, htruncated, htruncates⟩

/-- An answer of 540 bytes to `rootQuery`: one TXT record with two strings of 255 bytes. -/
def longAnswer : List UInt8 :=
  [0, 1, 0x81, 0x80, 0, 1, 0, 1, 0, 0, 0, 0, 0, 0, 1, 0, 1, 0, 0, 16, 0, 1, 0, 0, 0, 0, 2, 0] ++
    255 :: List.replicate 255 0 ++ 255 :: List.replicate 255 0

/-- The TC reply to `rootQuery`. -/
def rootTruncated : List UInt8 := [0, 1, 0x83, 0x80, 0, 1, 0, 0, 0, 0, 0, 0, 0, 0, 1, 0, 1]

/-- The query that `rootQuery` asks. -/
def rootQuestion : Query := ⟨rootQuery, ⟨⟨[]⟩, .a, .in⟩⟩

/-- A client without OPT gets a TC reply for the long answer. -/
theorem respond_udpLimit_longAnswer :
    ∃ p response, Packet.parse rootTruncated = .ok p ∧
      rootTruncated.length ≤ replyLimit rootQuery.wire ∧
      forwardedResult rootQuestion Forwarder.oneServer .udp ⟨5000000000⟩
        (Forwarder.challenged longAnswer []) = .ok response ∧
      replyLimit rootQuery.wire < response.wire.length ∧ p.header.truncated = true := by
  have hrun : ((respond defaultTable rootQuery.wire .udp ⟨5000000000⟩).exec
      (Forwarder.challenged longAnswer [])).1 = .ok rootTruncated := by
    decide +kernel
  have hlong : (forwardedResult rootQuestion Forwarder.oneServer .udp ⟨5000000000⟩
      (Forwarder.challenged longAnswer [])).toOption.any
        (fun response => decide (replyLimit rootQuery.wire < response.wire.length)) = true := by
    decide +kernel
  obtain ⟨p, hp, hlength, -, -, -, hforwards⟩ := respond_udpLimit defaultTable rootQuery.wire .udp
    ⟨5000000000⟩ (Forwarder.challenged longAnswer []) rootTruncated hrun
  have hselect : defaultTable.select rootQuestion.name = .default Forwarder.oneServer :=
    RoutingTable.select_eq_group_iff.mpr ⟨rfl, fun rule hrule => by cases hrule⟩
  have hchosen : Forwards defaultTable rootQuery.wire rootQuestion Forwarder.oneServer :=
    ⟨by decide +kernel, by decide +kernel, .inl hselect⟩
  cases hresult : forwardedResult rootQuestion Forwarder.oneServer .udp ⟨5000000000⟩
      (Forwarder.challenged longAnswer []) with
  | error e =>
    rw [hresult] at hlong
    cases hlong
  | ok response =>
    rw [hresult] at hlong
    have hlong := of_decide_eq_true hlong
    obtain ⟨-, htruncated, -⟩ := (hforwards _ _ hchosen).2 response hresult
    exact ⟨p, response, hp, hlength rfl, rfl, hlong, htruncated.mpr ⟨rfl, hlong⟩⟩

end RequestHandler

end Sederial
