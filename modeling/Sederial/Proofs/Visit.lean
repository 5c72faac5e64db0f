import Sederial.Proofs.Exchange
import Sederial.Proofs.Resend

/-!
# `Sederial.Proofs.Visit`: server visits and the walk over a group

A visit is the exchange with one server and the completion of a BADCOOKIE: up to two more
exchanges with the same server. `VisitLog` says what it leaves in the log and which
responses it can return.

`ForwardLog` describes the whole walk of `forward` over the servers of a group, turn by
turn: how a turn starts, what its visit did, and what decides about the next turn. Every
statement about runs of the forwarder follows from it by induction on the walk.
-/

set_option autoImplicit false

namespace Sederial

open Sederial.Lib
open Sederial.Dns (Packet Query Resent Response SentQuery setId)

/-- The response was accepted for one of the queries that go out for `q`. With `required`,
for one that insists on a COOKIE. -/
def Dns.Query.Answered (q : Query) (required : Bool) (response : Response) : Prop :=
  ∃ s : SentQuery, Resent q s.packet ∧ s.Accepts response.packet ∧ response.packet.Parsed ∧
    (required = true → s.cookieRequired = true)

/-- The event is part of a visit to a peer in `K`. -/
def Event.Visiting (K : SocketAddr → Prop) (e : Event) : Prop :=
  e.Chatter K ∨ ∃ peer response, e = .accept peer response ∧ K peer

/-- What completing a BADCOOKIE leaves in the log: every response it accepts carries a
COOKIE, and it returns one of them or the BADCOOKIE itself. -/
structure RetryLog (q : Query) (K : SocketAddr → Prop) (response : Response)
    (r : Except ForwardError Response) (new : List Event) : Prop where
  events : ∀ e ∈ new, e.Visiting K
  accepted : ∀ x ∈ Event.accepted new, q.Answered true x
  value : ∀ x, r = .ok x → x = response ∨ x ∈ Event.accepted new
  error : ∀ e, r = .error e → e ≠ .cancelled ∨ ∃ ev ∈ new, ev.StopSeen

/-- What a visit leaves in the log. Only the first response it accepts may lack a COOKIE. -/
structure VisitLog (q : Query) (K : SocketAddr → Prop) (r : Except ForwardError Response)
    (new : List Event) : Prop where
  events : ∀ e ∈ new, e.Visiting K
  accepted : ∀ x ∈ Event.accepted new, q.Answered false x
  later : ∀ x ∈ (Event.accepted new).tail, q.Answered true x
  value : ∀ x, r = .ok x → x ∈ Event.accepted new
  error : ∀ e, r = .error e → e ≠ .cancelled ∨ ∃ ev ∈ new, ev.StopSeen

/-- An answer with a cookie is an answer. -/
theorem Dns.Query.Answered.weaken {q : Query} {required : Bool} {response : Response}
    (h : q.Answered required response) : q.Answered false response := by
  obtain ⟨s, hresent, haccepts, hparsed, -⟩ := h
  exact ⟨s, hresent, haccepts, hparsed, fun h => nomatch h⟩

section

variable {q : Query} {K : SocketAddr → Prop} {response : Response}
  {r : Except ForwardError Response} {new pre : List Event}

/-- What an exchange accepts answers the client. -/
theorem ExchangeLog.answered {s : SentQuery} (h : ExchangeLog K s r new)
    (hs : Resent q s.packet) : ∀ x ∈ Event.accepted new, q.Answered s.cookieRequired x := by
  intro x hx
  rw [h.accepted] at hx
  have hok : r = .ok x := by
    cases r with
    | error e => cases hx
    | ok x' =>
      rw [List.mem_singleton.mp hx]
  obtain ⟨haccepts, hparsed⟩ := h.value x hok
  exact ⟨s, hs, haccepts, hparsed, id⟩

/-- The response that an exchange returns was accepted. -/
theorem ExchangeLog.mem_accepted {s : SentQuery} (h : ExchangeLog K s r new) {x : Response}
    (hx : r = .ok x) : x ∈ Event.accepted new := by
  rw [h.accepted, hx]
  exact List.mem_singleton_self x

/-- The exchange of a retry is a retry. -/
theorem ExchangeLog.retry {s : SentQuery} (h : ExchangeLog K s r new) (hs : Resent q s.packet)
    (hrequired : s.cookieRequired = true) : RetryLog q K response r new :=
  ⟨h.events, hrequired ▸ h.answered hs, fun _ hx => .inr (h.mem_accepted hx), h.error⟩

namespace RetryLog

/-- A retry that failed has accepted nothing. -/
theorem failed {e : ForwardError} (hchatter : ∀ ev ∈ new, ev.Chatter K)
    (he : e ≠ .cancelled ∨ ∃ ev ∈ new, ev.StopSeen) :
    RetryLog q K response (.error e) new := by
  refine ⟨fun ev hev => .inl (hchatter ev hev), ?_, fun x hx => (nomatch hx), fun e' h => ?_⟩
  · rw [Event.accepted_eq_nil hchatter]
    simp
  · cases h
    exact he

/-- More of the visit may come before. -/
theorem prepend (hpre : ∀ e ∈ pre, e.Visiting K)
    (haccepted : ∀ x ∈ Event.accepted pre, q.Answered true x)
    (h : RetryLog q K response r new) : RetryLog q K response r (pre ++ new) := by
  refine ⟨fun e he => ?_, fun x hx => ?_, fun x hx => ?_, fun e he => ?_⟩
  · rcases List.mem_append.mp he with he | he
    · exact hpre e he
    · exact h.events e he
  · rw [Event.accepted_append] at hx
    rcases List.mem_append.mp hx with hx | hx
    · exact haccepted x hx
    · exact h.accepted x hx
  · rw [Event.accepted_append]
    exact (h.value x hx).imp_right (List.mem_append_right _)
  · exact (h.error e he).imp_right fun ⟨ev, hev, hstop⟩ =>
      ⟨ev, List.mem_append_right pre hev, hstop⟩

/-- A retry behind an operation that only chatters. -/
theorem after {σ α : Type} [Logged σ Event] {I : σ → Prop} {m : Run σ ForwardError α}
    {A : α → Prop} {f : α → Run σ ForwardError Response} (hm : Traced I m (Chat K A))
    (hf : ∀ a, A a → Traced I (f a) (RetryLog q K response)) :
    Traced I (m >>= f) (RetryLog q K response) := by
  refine hm.after (fun _ _ hchatter he => .failed hchatter he) (fun pre _ _ hpre h => ?_) hf
  refine h.prepend (fun e he => .inl (hpre e he)) ?_
  rw [Event.accepted_eq_nil hpre]
  simp

end RetryLog

/-- An exchange that needs no completion is a visit. -/
theorem ExchangeLog.visit {s : SentQuery} (h : ExchangeLog K s r new) (hs : Resent q s.packet) :
    VisitLog q K r new := by
  refine ⟨h.events, fun x hx => (h.answered hs x hx).weaken, ?_, fun _ hx => h.mem_accepted hx,
    h.error⟩
  rw [h.accepted]
  cases r <;> simp [Except.toOption]

/-- An exchange and its completion are a visit. -/
theorem ExchangeLog.visit_retry {s : SentQuery} (h : ExchangeLog K s (.ok response) pre)
    (hs : Resent q s.packet) (hretry : RetryLog q K response r new) :
    VisitLog q K r (pre ++ new) := by
  have haccepted : Event.accepted (pre ++ new) = response :: Event.accepted new := by
    rw [Event.accepted_append, h.accepted]
    rfl
  refine ⟨fun e he => ?_, fun x hx => ?_, fun x hx => ?_, fun x hx => ?_, fun e he => ?_⟩
  · rcases List.mem_append.mp he with he | he
    · exact h.events e he
    · exact hretry.events e he
  · rw [Event.accepted_append] at hx
    rcases List.mem_append.mp hx with hx | hx
    · exact (h.answered hs x hx).weaken
    · exact (hretry.accepted x hx).weaken
  · rw [haccepted] at hx
    exact hretry.accepted x hx
  · rw [haccepted]
    rcases hretry.value x hx with rfl | hx
    · exact List.mem_cons_self
    · exact List.mem_cons_of_mem _ hx
  · exact (hretry.error e he).imp_right fun ⟨ev, hev, hstop⟩ =>
      ⟨ev, List.mem_append_right pre hev, hstop⟩

end

namespace Forwarder

section

variable {T : UpstreamAddress → SocketAddr → Prop} (hT : ∀ address, T address address.socket)
  {q : Query}

/-- A retry goes out as one of the packets of the query and insists on a COOKIE. -/
theorem retryExchange_traced {K : SocketAddr → Prop} (exchange : Exchange) {wire : List UInt8}
    (hwire : ∀ id p, Packet.parse (setId wire id) = .ok p → Resent q p) :
    Traced (CacheOk T) (retryExchange exchange wire)
      (Chat K fun retry => Resent q retry.sent.packet ∧ retry.sent.cookieRequired = true) := by
  refine (checkDeadline_traced _).emits_bind fun _ _ => ?_
  refine nextTransactionId_traced.emits_bind fun id _ => ?_
  split
  · exact .throw (.failed (by simp) (.inl (by simp)))
  · rename_i sent hsent
    obtain ⟨hparse, hrequired⟩ := Dns.SentQuery.retry_eq_ok_iff.mp hsent
    exact .pure (.ok (by simp) ⟨hwire id _ hparse, hrequired⟩)

include hT

/-- The turn behind BADCOOKIE accepts only responses with a cookie. -/
theorem finishBadcookie_traced (hq : q.packet.Parsed)
    (hquestions : q.packet.questions = [q.question]) (address : UpstreamAddress)
    (exchange : Exchange) (hsent : Resent q exchange.sent.packet) (response : Response)
    (transport : Transport) :
    Traced (CacheOk T) (finishBadcookie address exchange response transport)
      (RetryLog q (T address) response) := by
  have hreturn : RetryLog q (T address) response (.ok response) [] :=
    ⟨by simp, by simp [Event.accepted], fun x hx => .inl (Except.ok.inj hx).symm,
      fun e he => nomatch he⟩
  -- Sending the same query once more, over TCP.
  have hagain : ∀ wire, (∀ id p, Packet.parse (setId wire id) = .ok p → Resent q p) →
      ∀ exchange, Traced (CacheOk T) (do
        let retry ← retryExchange exchange wire
        tcpExchange address retry) (RetryLog q (T address) response) := by
    intro wire hwire exchange
    refine RetryLog.after (retryExchange_traced exchange hwire) fun retry hretry => ?_
    exact (tcpExchange_traced hT address retry).mono fun r new h => h.retry hretry.1 hretry.2
  unfold finishBadcookie
  split
  · exact .pure hreturn
  · exact .throw (.failed (by simp) (.inl (by simp)))
  · split
    · exact .pure hreturn
    · exact hagain _ (fun id p hparse => hsent.reparse hq id hparse) exchange
  · split
    · exact .pure hreturn
    · exact hagain _ (fun id p hparse => hsent.reparse hq id hparse) exchange
  · rename_i wire hrewrite
    have hwire : ∀ id p, Packet.parse (setId wire id) = .ok p → Resent q p :=
      fun id p hparse => hsent.rewrite hq hquestions hrewrite id hparse
    refine RetryLog.after (retryExchange_traced exchange hwire) fun retry hretry => ?_
    refine (exchangeOver_traced hT address retry transport).bind
      (fun e new h => h.retry hretry.1 hretry.2) fun retried new h => ?_
    split
    · refine .pure ?_
      rw [List.append_nil]
      exact h.retry hretry.1 hretry.2
    · -- Still BADCOOKIE over UDP: once more over TCP, with the newest cookie.
      have hlog : RetryLog q (T address) response (.ok retried) new := h.retry hretry.1 hretry.2
      suffices hthird : Traced (CacheOk T) _ (RetryLog q (T address) response) from
        hthird.mono fun r new' hr => hr.prepend hlog.events hlog.accepted
      refine RetryLog.after
        (A := fun w => ∀ id p, Packet.parse (setId w id) = .ok p → Resent q p) ?_
        fun wire hwire => hagain wire hwire retry
      refine .ofExcept (.silent (fun wire h => ?_) fun e h => ?_)
      · split at h
        · rename_i hrewrite
          cases h
          exact fun id p hparse => hretry.1.rewrite hq hquestions hrewrite id hparse
        · cases h
          exact fun id p hparse => hretry.1.reparse hq id hparse
        · cases h
          exact fun id p hparse => hretry.1.reparse hq id hparse
        · cases h
        · cases h
      · split at h <;> cases h <;> simp

/-- A visit, from the first exchange to the last. -/
theorem visit_traced (hq : q.packet.Parsed) (hquestions : q.packet.questions = [q.question])
    (address : UpstreamAddress) (exchange : Exchange) (hsent : Resent q exchange.sent.packet)
    (transport : Transport) :
    Traced (CacheOk T) (visit address exchange transport) (VisitLog q (T address)) := by
  refine (exchangeOver_traced hT address exchange transport).bind (fun e new h => h.visit hsent)
    fun response new h => ?_
  split
  · exact (finishBadcookie_traced hT hq hquestions address exchange hsent response transport).mono
      fun r new' hretry => h.visit_retry hsent hretry
  · refine .pure ?_
    rw [List.append_nil]
    exact h.visit hsent

end

/-! ### The walk over a group -/

end Forwarder

/-- The budget of an attempt that starts at `time`. -/
def Deadline.cappedAt (request : Deadline) (time : Option Nat) : Deadline :=
  ⟨min request.instant (time.getD 0 + attemptTimeout)⟩

namespace Forwarder

/-- How a turn of the walk starts: it gets its exchange, or it ends the walk because its
budget is gone or the entropy source fails. -/
inductive TurnStart (q : Query) (request : Deadline) (address : UpstreamAddress) :
    Except ForwardError Exchange → List Event → Prop
  | late {time : Option Nat} {reading : Option Reading} {e : IoError}
      (left : (request.cappedAt time).left reading = .error e) :
      TurnStart q request address (.error (.ofIo e))
        [.attempt address, .now time, .check reading]
  | noId {time : Option Nat} {reading : Option Reading} {n : Nat} {kind : ErrorKind}
      (left : (request.cappedAt time).left reading = .ok n) :
      TurnStart q request address (.error (.ofIo (.os kind)))
        [.attempt address, .now time, .check reading, .entropy (.error kind)]
  | ready {time : Option Nat} {reading : Option Reading} {n : Nat} {id : UInt16}
      (left : (request.cappedAt time).left reading = .ok n) :
      TurnStart q request address (.ok ⟨q.sent ⟨id⟩, request.cappedAt time⟩)
        [.attempt address, .now time, .check reading, .entropy (.ok id)]

/-- The walk over the servers that are left, from the error and the relayed failure it has
so far. -/
inductive ForwardLog (q : Query) (T : UpstreamAddress → SocketAddr → Prop)
    (request : Deadline) : List UpstreamAddress → ForwardError → Option Response →
      Except ForwardError Response → List Event → Prop
  | expires {last : ForwardError} {relayed : Option Response} {reading : Option Reading}
      {e : IoError} (left : request.left reading = .error e) :
      ForwardLog q T request [] last relayed (.error (.ofIo e)) [.check reading]
  | relays {last : ForwardError} {response : Response} {reading : Option Reading} {n : Nat}
      (left : request.left reading = .ok n) :
      ForwardLog q T request [] last (some response) (.ok response) [.check reading]
  | gives {last : ForwardError} {reading : Option Reading} {n : Nat}
      (left : request.left reading = .ok n) :
      ForwardLog q T request [] last none (.error last) [.check reading]
  | unstarted {a : UpstreamAddress} {rest : List UpstreamAddress} {last e : ForwardError}
      {relayed : Option Response} {pre : List Event}
      (start : TurnStart q request a (.error e) pre) :
      ForwardLog q T request (a :: rest) last relayed (.error e) pre
  | cancelled {a : UpstreamAddress} {rest : List UpstreamAddress} {last : ForwardError}
      {relayed : Option Response} {exchange : Exchange} {pre body : List Event}
      (start : TurnStart q request a (.ok exchange) pre)
      (visit : VisitLog q (T a) (.error .cancelled) body) :
      ForwardLog q T request (a :: rest) last relayed (.error .cancelled)
        (pre ++ .visit a :: (body ++ [.outcome a (.error .cancelled)]))
  | failed {a : UpstreamAddress} {rest : List UpstreamAddress} {last e : ForwardError}
      {relayed : Option Response} {exchange : Exchange} {pre body new : List Event}
      {r : Except ForwardError Response} (start : TurnStart q request a (.ok exchange) pre)
      (visit : VisitLog q (T a) (.error e) body) (ordinary : e ≠ .cancelled)
      (next : ForwardLog q T request rest e relayed r new) :
      ForwardLog q T request (a :: rest) last relayed r
        (pre ++ .visit a :: (body ++ .outcome a (.error e) :: new))
  | late {a : UpstreamAddress} {rest : List UpstreamAddress} {last : ForwardError}
      {relayed : Option Response} {exchange : Exchange} {pre body : List Event}
      {response : Response} {reading : Option Reading} {e : IoError}
      (start : TurnStart q request a (.ok exchange) pre)
      (visit : VisitLog q (T a) (.ok response) body) (left : request.left reading = .error e) :
      ForwardLog q T request (a :: rest) last relayed (.error (.ofIo e))
        (pre ++ .visit a :: (body ++ .outcome a (.ok response) :: [.check reading]))
  | returns {a : UpstreamAddress} {rest : List UpstreamAddress} {last : ForwardError}
      {relayed : Option Response} {exchange : Exchange} {pre body : List Event}
      {response : Response} {reading : Option Reading} {n : Nat}
      (start : TurnStart q request a (.ok exchange) pre)
      (visit : VisitLog q (T a) (.ok response) body) (left : request.left reading = .ok n)
      (final : retriesInGroup response.responseCode = false) :
      ForwardLog q T request (a :: rest) last relayed (.ok response)
        (pre ++ .visit a :: (body ++ .outcome a (.ok response) :: [.check reading]))
  | advances {a : UpstreamAddress} {rest : List UpstreamAddress} {last : ForwardError}
      {relayed : Option Response} {exchange : Exchange} {pre body new : List Event}
      {response : Response} {reading : Option Reading} {n : Nat}
      {r : Except ForwardError Response} (start : TurnStart q request a (.ok exchange) pre)
      (visit : VisitLog q (T a) (.ok response) body) (left : request.left reading = .ok n)
      (retried : retriesInGroup response.responseCode = true)
      (next : ForwardLog q T request rest (.fromRcode response.responseCode) (some response) r
        new) :
      ForwardLog q T request (a :: rest) last relayed r
        (pre ++ .visit a :: (body ++ .outcome a (.ok response) :: .check reading :: new))

section

variable {T : UpstreamAddress → SocketAddr → Prop} {q : Query} (request : Deadline)

/-- The start of an attempt repeats the query of the client. -/
theorem startAttempt_logs (address : UpstreamAddress) :
    Traced (CacheOk T) (startAttempt q address request) (TurnStart q request address) := by
  refine (record_logs _).bind_ok ?_
  rintro _ new rfl
  refine Traced.bind_ok (G := fun d new => ∃ time, d = request.cappedAt time ∧
    new = [Event.now time]) ?_ ?_
  · refine onEnv_traced (Env.now_logs.bind_ok ?_)
    rintro now new ⟨time, rfl, rfl⟩
    exact .pure ⟨_, rfl, time, rfl, rfl⟩
  · rintro deadline new ⟨time, rfl, rfl⟩
    refine (checkDeadline_logs _).bind ?_ ?_
    · rintro e new ⟨reading, rfl, ⟨n, -, hr⟩ | ⟨e', hleft, hr⟩⟩
      · cases hr
      · cases hr
        exact .late hleft
    · rintro _ new ⟨reading, rfl, ⟨n, hleft, -⟩ | ⟨e', -, hr⟩⟩
      · refine nextTransactionId_logs.bind ?_ ?_
        · rintro e new (⟨id, hr, -⟩ | ⟨kind, hr, rfl⟩)
          · cases hr
          · cases hr
            exact .noId hleft
        · rintro id new (⟨id', hr, rfl⟩ | ⟨kind, hr, -⟩)
          · cases hr
            exact .pure (.ready hleft)
          · cases hr
      · cases hr

/-- The first query of a turn is the client's under a new ID. -/
theorem TurnStart.resent {address : UpstreamAddress} {exchange : Exchange} {pre : List Event}
    (h : TurnStart q request address (.ok exchange) pre) : Resent q exchange.sent.packet := by
  cases h with
  | ready _ => exact .renumbered _

/-- BADCOOKIE is not a code that fails over. -/
theorem not_retriesInGroup {code : Dns.ResponseCode}
    (h : code = .badCookie ∨ ¬ retriesInGroup code = true) : retriesInGroup code = false := by
  rcases h with rfl | h
  · rfl
  · simpa using h

/-- The walk of `forward` does what `ForwardLog` says. -/
theorem forwardLoop_logs (hT : ∀ address, T address address.socket) (hq : q.packet.Parsed)
    (hquestions : q.packet.questions = [q.question]) (transport : Transport)
    (servers : List UpstreamAddress) (last : ForwardError) (relayed : Option Response) :
    Traced (CacheOk T) (forwardLoop q transport request servers last relayed)
      (ForwardLog q T request servers last relayed) := by
  induction servers generalizing last relayed with
  -- Behind the last server there is one more check of the deadline.
  | nil =>
    refine (checkDeadline_logs request).bind ?_ ?_
    · rintro e new ⟨reading, rfl, ⟨n, -, hr⟩ | ⟨e', hleft, hr⟩⟩
      · cases hr
      · cases hr
        exact .expires hleft
    · rintro _ new ⟨reading, rfl, ⟨n, hleft, -⟩ | ⟨e', -, hr⟩⟩
      · split
        · exact .pure (.relays hleft)
        · exact .throw (.gives hleft)
      · cases hr
  -- One attempt: a transaction ID, the visit of the server, and what its outcome means for the
  -- loop.
  | cons a rest ih =>
    refine (startAttempt_logs request a).bind (fun e pre hstart => .unstarted hstart)
      fun exchange pre hstart => ?_
    refine (record_logs _).bind_ok ?_
    rintro _ _ rfl
    refine Traced.bind_ok (G := VisitLog q (T a)) ((visit_traced hT hq hquestions a exchange
      (hstart.resent) transport).attempt fun r body h => ⟨r, rfl, h⟩) fun r body hvisit => ?_
    refine (record_logs _).bind_ok ?_
    rintro _ _ rfl
    split
    · exact .throw (.cancelled hstart hvisit)
    · rename_i error hordinary
      exact (ih error relayed).mono fun r new hnext =>
        .failed hstart hvisit (fun h => hordinary h) hnext
    · rename_i response
      refine (checkDeadline_logs request).bind ?_ ?_
      · rintro e new ⟨reading, rfl, ⟨n, -, hr⟩ | ⟨e', hleft, hr⟩⟩
        · cases hr
        · cases hr
          exact .late hstart hvisit hleft
      · rintro _ new ⟨reading, rfl, ⟨n, hleft, -⟩ | ⟨e', -, hr⟩⟩
        · dsimp only
          -- A response is returned unless its code is one for which the next server is asked.
          split
          · rename_i hfinal
            exact .pure (.returns hstart hvisit hleft (not_retriesInGroup hfinal))
          · rename_i hretries
            have hretries : retriesInGroup response.responseCode = true := by
              simpa using (not_or.mp hretries).2
            exact (ih _ _).mono fun r new hnext => .advances hstart hvisit hleft hretries hnext
        · cases hr

/-- `forward` is the walk over all servers of the group. -/
theorem forward_logs (hT : ∀ address, T address address.socket) (hq : q.packet.Parsed)
    (hquestions : q.packet.questions = [q.question]) (upstreams : UpstreamGroup)
    (transport : Transport) :
    Traced (CacheOk T) (forward q upstreams transport request)
      (ForwardLog q T request upstreams.servers .timeout none) :=
  forwardLoop_logs request hT hq hquestions transport upstreams.servers .timeout none

end

end Forwarder

end Sederial
