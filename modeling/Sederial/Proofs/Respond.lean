import Sederial.Forwarding
import Sederial.Proofs.Visit

/-!
# `Sederial.Proofs.Respond`: what the handler does with a client message

`RespondLog` describes every run of `respondInner`: either no server is asked, and a reply is
one of the four kinds of `LocalReply`, or the query is forwarded to the group selected for
its name, and a reply is one of the three kinds of `Relays`. Together these are the exits
of the handler.
-/

set_option autoImplicit false

namespace Sederial

open Sederial.Lib
open Sederial.Dns (Header Packet ParseFailure Query Response ResponseCode)

/-- The event belongs to no server visit and concerns no peer. -/
def Event.Quiet (e : Event) : Prop :=
  e.Chatter (fun _ => False) ∨ ∃ address, e = .attempt address

namespace RequestHandler

/-- The message is a query that the table sends to a group. -/
structure Forwards (routing : RoutingTable) (wire : List UInt8) (q : Query)
    (group : UpstreamGroup) : Prop where
  parse : Packet.parse wire = .ok q.packet
  forward : q.packet.validateQuery = .forward q
  select : routing.select q.name = .default group ∨
    ∃ route, routing.select q.name = .routed route ∧ route.upstreams = group

/-- The replies the handler makes without asking a server. -/
inductive LocalReply (routing : RoutingTable) (wire : List UInt8) : List UInt8 → Prop
  | malformed {failure : ParseFailure} {reply : List UInt8}
      (parse : Packet.parseForReply wire = .error failure)
      (made : failure.formatReply = some reply) : LocalReply routing wire reply
  | rejected {p : Packet} {code : ResponseCode} {reply : List UInt8}
      (parse : Packet.parse wire = .ok p) (reject : p.validateQuery = .reject code)
      (made : p.localErrorReply code = some reply) : LocalReply routing wire reply
  | answered {q : Query} {record : LocalRecord} {reply : List UInt8}
      (parse : Packet.parse wire = .ok q.packet) (forward : q.packet.validateQuery = .forward q)
      (select : routing.select q.name = .localRecord record)
      (made : q.localAReply record.address record.ttl = some reply) :
      LocalReply routing wire reply
  | unmatched {q : Query} {reply : List UInt8}
      (parse : Packet.parse wire = .ok q.packet) (forward : q.packet.validateQuery = .forward q)
      (select : routing.select q.name = .unmatched)
      (made : q.errorReply .nameError = some reply) : LocalReply routing wire reply

/-- The replies the handler makes from the outcome of a forwarded query. -/
inductive Relays (q : Query) (transport : Transport) :
    Except ForwardError Response → List UInt8 → Prop
  | failed {e : ForwardError} {reply : List UInt8}
      (made : q.errorReply .serverFailure = some reply) : Relays q transport (.error e) reply
  | truncated {response : Response}
      (large : transport = .udp ∧ response.wire.length > q.udpLimit) :
      Relays q transport (.ok response) (q.truncatedReply response)
  | relayed {response : Response}
      (fits : ¬ (transport = .udp ∧ response.wire.length > q.udpLimit)) :
      Relays q transport (.ok response) (response.withId q.id)

/-- The runs of the handler. -/
inductive RespondLog (T : UpstreamAddress → SocketAddr → Prop) (routing : RoutingTable)
    (wire : List UInt8) (transport : Transport) (request : Deadline) :
    Except NoReply (List UInt8) → List Event → Prop
  | alone {r : Except NoReply (List UInt8)} {new : List Event} (quiet : ∀ e ∈ new, e.Quiet)
      (reply : ∀ w, r = .ok w → LocalReply routing wire w) :
      RespondLog T routing wire transport request r new
  | forwarded {q : Query} {group : UpstreamGroup} {outcome : Except ForwardError Response}
      {r : Except NoReply (List UInt8)} {pre body post : List Event}
      (chosen : Forwards routing wire q group) (before : ∀ e ∈ pre, e.Quiet)
      (walk : Forwarder.ForwardLog q T request group.servers .timeout none outcome body)
      (after : ∀ e ∈ post, e.Quiet) (reply : ∀ w, r = .ok w → Relays q transport outcome w) :
      RespondLog T routing wire transport request r (pre ++ body ++ post)

section

variable {T : UpstreamAddress → SocketAddr → Prop} {routing : RoutingTable} {wire : List UInt8}
  {transport : Transport} {request : Deadline}

/-- Quiet events in front of a request's own leave what its log says. -/
theorem RespondLog.prepend {r : Except NoReply (List UInt8)} {pre new : List Event}
    (h : RespondLog T routing wire transport request r new) (hpre : ∀ e ∈ pre, e.Quiet) :
    RespondLog T routing wire transport request r (pre ++ new) := by
  cases h with
  | alone quiet reply =>
    refine .alone (fun e he => ?_) reply
    rcases List.mem_append.mp he with he | he
    · exact hpre e he
    · exact quiet e he
  | @forwarded q group outcome r pre' body post chosen before walk after reply =>
    rw [← List.append_assoc, ← List.append_assoc]
    refine .forwarded chosen (fun e he => ?_) walk after reply
    rcases List.mem_append.mp he with he | he
    · exact hpre e he
    · exact before e he

/-- Quiet events behind a run, after which a reply may be dropped. -/
theorem RespondLog.append {r r' : Except NoReply (List UInt8)} {new post : List Event}
    (h : RespondLog T routing wire transport request r new) (hpost : ∀ e ∈ post, e.Quiet)
    (hr : ∀ w, r' = .ok w → r = .ok w) :
    RespondLog T routing wire transport request r' (new ++ post) := by
  cases h with
  | alone quiet reply =>
    refine .alone (fun e he => ?_) fun w hw => reply w (hr w hw)
    rcases List.mem_append.mp he with he | he
    · exact quiet e he
    · exact hpost e he
  | @forwarded q group outcome r pre body post' chosen before walk after reply =>
    rw [List.append_assoc]
    refine .forwarded chosen before walk (fun e he => ?_) fun w hw => reply w (hr w hw)
    rcases List.mem_append.mp he with he | he
    · exact after e he
    · exact hpost e he

/-- A check of the deadline sends nothing and accepts nothing. -/
theorem checkDeadline_quiet :
    Traced (Forwarder.CacheOk T) (checkDeadline request) fun _ new => ∀ e ∈ new, e.Quiet := by
  have hcheck := @Forwarder.checkDeadline_traced T (fun _ => False) request
  exact hcheck.mapError (fun _ _ h e he => .inl (h.events e he))
    fun _ _ h e he => .inl (h.events e he)

/-- A reply that is already there is passed on with no events. -/
theorem orSilent_traced (reply : Option (List UInt8)) :
    Traced (Forwarder.CacheOk T) (orSilent reply) fun r new =>
      new = [] ∧ ∀ w, r = .ok w → reply = some w := by
  cases reply with
  | none => exact .throw ⟨rfl, fun w h => nomatch h⟩
  | some w' => exact .pure ⟨rfl, fun w h => congrArg some (Except.ok.inj h)⟩

/-- A reply made without asking a server. -/
theorem alone_traced {reply : Option (List UInt8)}
    (hreply : ∀ w, reply = some w → LocalReply routing wire w) :
    Traced (Forwarder.CacheOk T) (orSilent reply)
      (RespondLog T routing wire transport request) := by
  refine (orSilent_traced reply).mono ?_
  rintro r new ⟨rfl, h⟩
  exact .alone (by simp) fun w hw => hreply w (h w hw)

/-- A check between a run and its reply. -/
theorem checked_traced {m : Run Forwarder NoReply (List UInt8)}
    {r : Except NoReply (List UInt8)} {new : List Event}
    (h : RespondLog T routing wire transport request r new)
    (hm : Traced (Forwarder.CacheOk T) m fun r' new' => new' = [] ∧ ∀ w, r' = .ok w → r = .ok w) :
    Traced (Forwarder.CacheOk T) (do checkDeadline request; m) fun r' new' =>
      RespondLog T routing wire transport request r' (new ++ new') := by
  refine checkDeadline_quiet.bind (fun e post hpost => ?_) fun _ post hpost => ?_
  · exact h.append hpost fun w hw => nomatch hw
  · refine hm.mono ?_
    rintro r' new' ⟨rfl, hr⟩
    rw [List.append_nil]
    exact h.append hpost hr

variable (hT : ∀ address, T address address.socket)

include hT

/-- The log of a query that is relayed to its group. -/
theorem relay_logs {q : Query} {group : UpstreamGroup} (h : Forwards routing wire q group) :
    Traced (Forwarder.CacheOk T) (relay q group transport request)
      (RespondLog T routing wire transport request) := by
  obtain ⟨-, hforward⟩ := Packet.validateQuery_eq_forward_iff.mp h.forward
  refine Traced.bind_ok ((Forwarder.forward_logs request hT (Packet.parsed_of_parse h.parse)
    hforward.questions group transport).attempt fun r body h => ⟨r, rfl, h⟩)
    fun outcome body hwalk => ?_
  -- What a reply would be, before the last deadline check.
  have hlog : ∀ r, (∀ w, r = .ok w → Relays q transport outcome w) →
      RespondLog T routing wire transport request r body := by
    intro r hr
    have := @RespondLog.forwarded T routing wire transport request q group outcome r [] body [] h
      (by simp) hwalk (by simp) hr
    simpa using this
  split
  · refine .throw ?_
    rw [List.append_nil]
    exact hlog _ fun w hw => nomatch hw
  · refine checked_traced (r := (q.errorReply .serverFailure).elim (.error .silent) .ok)
      (hlog _ fun w hw => ?_) ((orSilent_traced _).mono ?_)
    · cases hmade : q.errorReply .serverFailure with
      | none =>
        rw [hmade] at hw
        cases hw
      | some w' =>
        rw [hmade] at hw
        cases hw
        exact .failed hmade
    · rintro r new ⟨rfl, hr⟩
      refine ⟨rfl, fun w hw => ?_⟩
      rw [hr w hw]
      rfl
  · rename_i response
    refine checked_traced (r := .ok (if transport = .udp ∧ response.wire.length > q.udpLimit then
      q.truncatedReply response else response.withId q.id)) (hlog _ fun w hw => ?_) ?_
    · cases hw
      split
      · exact .truncated ‹_›
      · exact .relayed ‹_›
    · split
      · exact .pure ⟨rfl, fun w hw => hw⟩
      · exact .pure ⟨rfl, fun w hw => hw⟩

/-- The log of a query that passed the query policy. -/
theorem answer_logs {q : Query} (hparse : Packet.parse wire = .ok q.packet)
    (hforward : q.packet.validateQuery = .forward q) :
    Traced (Forwarder.CacheOk T) (answer routing q transport request)
      (RespondLog T routing wire transport request) := by
  unfold answer
  split
  · rename_i record hselect
    exact alone_traced fun w hw => .answered hparse hforward hselect hw
  · rename_i hselect
    exact alone_traced fun w hw => .unmatched hparse hforward hselect hw
  · rename_i group hselect
    exact relay_logs hT ⟨hparse, hforward, .inl hselect⟩
  · rename_i route hselect
    exact relay_logs hT ⟨hparse, hforward, .inr ⟨route, hselect, rfl⟩⟩

/-- Every run of `respondInner` is one of `RespondLog`. -/
theorem respondInner_logs :
    Traced (Forwarder.CacheOk T) (respondInner routing wire transport request)
      (RespondLog T routing wire transport request) := by
  refine checkDeadline_quiet.bind (fun e new hnew => .alone hnew fun w hw => nomatch hw)
    fun _ pre hpre => ?_
  suffices hrest : Traced (Forwarder.CacheOk T) _ (RespondLog T routing wire transport request) from
    hrest.mono fun r new h => h.prepend hpre
  split
  · exact .throw (.alone (by simp) fun w hw => nomatch hw)
  · split
    · exact .throw (.alone (by simp) fun w hw => nomatch hw)
    · split
      · rename_i failure hparse
        exact alone_traced fun w hw => .malformed hparse hw
      · rename_i packet hparse
        have hparse := Packet.parseForReply_eq_ok_iff.mp hparse
        split
        · rename_i code hreject
          exact alone_traced fun w hw => .rejected hparse hreject hw
        · exact .throw (.alone (by simp) fun w hw => nomatch hw)
        · rename_i q hforward
          obtain ⟨rfl, -⟩ := Packet.validateQuery_eq_forward_iff.mp hforward
          exact answer_logs hT hparse hforward

end

/-- The reply as the client gets it. -/
def finished (routing : RoutingTable) (reply : List UInt8) : List UInt8 :=
  if routing.hasUpstreams then reply else Dns.withoutRecursion reply

/-- Every run of `respond` is one of `respondInner` with its reply finished. -/
theorem respond_logs {T : UpstreamAddress → SocketAddr → Prop} (routing : RoutingTable)
    (wire : List UInt8) (transport : Transport) (request : Deadline)
    (hT : ∀ address, T address address.socket) :
    Traced (Forwarder.CacheOk T) (respond routing wire transport request) fun r new =>
      ∃ inner, RespondLog T routing wire transport request inner new ∧
        ∀ w, r = .ok w → ∃ reply, inner = .ok reply ∧ w = finished routing reply := by
  refine (respondInner_logs hT).bind (fun e new h => ⟨_, h, fun w hw => nomatch hw⟩)
    fun reply new h => ?_
  refine checkDeadline_quiet.bind (fun e post hpost => ?_) fun _ post hpost => ?_
  · exact ⟨.ok reply, h.append hpost fun w hw => hw, fun w hw => nomatch hw⟩
  · refine .pure ⟨.ok reply, ?_, fun w hw => ⟨reply, rfl, (Except.ok.inj hw).symm⟩⟩
    rw [List.append_nil]
    exact h.append hpost fun w hw => hw

end RequestHandler

end Sederial
