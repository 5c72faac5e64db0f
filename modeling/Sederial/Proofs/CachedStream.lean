import Sederial.Proofs.Correlation
import Sederial.Proofs.TcpExchange

/-!
# `Sederial.Proofs.CachedStream`: the cached stream is always synchronised

A forwarder keeps one TCP stream across requests. `Synchronised` is an invariant of everything
the forwarder does: only `tcpExchange` opens, uses or caches a stream, and the other programs log
no traffic on one. So in every state of a forwarder the cached stream has seen nothing but
complete exchanges.
-/

set_option autoImplicit false

namespace Sederial

open Sederial.Lib
open Sederial.Dns (Query Response)

namespace Forwarder

/-! ### Every run keeps the cached stream synchronised -/

/-- An operation of the world without traffic keeps the streams synchronised. -/
theorem onEnv_keeps {ε α : Type} {m : Run Env ε α} {R : Except ε α → List Event → Prop}
    (h : Traced (fun _ => True) m R) (hR : ∀ r new, R r new → Event.traffic new = []) :
    Run.Keeps Synchronised (onEnv m) := by
  intro s hs
  obtain ⟨-, new, hlog, hr⟩ := h s.env trivial
  exact hs.quiet (.inr rfl) hlog (hR _ _ hr)

/-- So does an event that is no traffic. -/
theorem record_keeps {ε : Type} {e : Event} (he : Event.traffic [e] = []) :
    Run.Keeps Synchronised (record e : Run Forwarder ε Unit) :=
  .modify fun _ hs => hs.quiet (.inr rfl) rfl he

/-- So does a deadline check. -/
theorem checkDeadline_keeps (deadline : Deadline) :
    Run.Keeps Synchronised (checkDeadline deadline) := by
  have hremaining : Run.Keeps Synchronised (onEnv deadline.remaining) := by
    refine onEnv_keeps deadline.remaining_logs ?_
    rintro r new ⟨reading, -, rfl⟩
    rfl
  exact .bind hremaining.mapError fun _ _ => .pure

/-- So does a call that failed. -/
theorem checkCall_keeps (answer : Option ErrorKind) :
    Run.Keeps Synchronised (checkCall answer) := by
  cases answer with
  | none => exact .pure
  | some kind => exact .throw

/-- So does a fresh transaction ID. -/
theorem nextTransactionId_keeps : Run.Keeps Synchronised nextTransactionId := by
  refine .bind (onEnv_keeps Env.readEntropy_logs ?_) fun id _ => ?_
  · rintro r new ⟨id, -, rfl⟩
    rfl
  · split
    · exact .pure
    · exact .throw

/-- So does the end of a connection that was idle for too long. -/
theorem expireIdle_keeps {ε : Type} :
    Run.Keeps Synchronised (expireIdle : Run Forwarder ε Unit) := by
  intro s hs
  obtain ⟨-, htcp, -, new, hlog, htraffic, -⟩ := @expireIdle_run ε s
  exact hs.quiet htcp hlog htraffic

/-- Whatever an exchange leaves in the cache is live. -/
theorem tcpExchange_keeps (address : UpstreamAddress) (exchange : Exchange) :
    Run.Keeps Synchronised (tcpExchange address exchange) := by
  intro s hs
  have hsettled := (tcpExchange_run address exchange s).settled
  generalize (tcpExchange address exchange).exec s = out at hsettled
  obtain ⟨r, s'⟩ := out
  intro connection hconnection
  cases hsettled with
  | failed empty =>
    rw [empty] at hconnection
    cases hconnection
  | answered cached live =>
    rw [cached] at hconnection
    cases hconnection
    exact live hs

/-- The loop behind a datagram falls back to TCP, or leaves the cache alone. -/
theorem udpLoop_keeps (address : UpstreamAddress) (exchange : Exchange) (turns : Nat)
    (incoming : List UdpEvent) (invalidResponses : Nat) :
    Run.Keeps Synchronised (udpLoop address exchange turns incoming invalidResponses) := by
  induction turns generalizing incoming invalidResponses with
  | zero =>
    unfold udpLoop
    exact .bind (checkDeadline_keeps _) fun _ _ => .throw
  | succ turns ih =>
    unfold udpLoop
    refine .bind (checkDeadline_keeps _) fun _ _ => ?_
    dsimp only
    split
    · exact ih _ _
    · exact .throw
    · split
      · exact ih _ _
      · exact .throw
    · refine .bind (checkDeadline_keeps _) fun _ _ => ?_
      split
      · exact tcpExchange_keeps address exchange
      · split
        · exact .bind (record_keeps rfl) fun _ _ => .pure
        · split
          · exact .throw
          · exact ih _ _

/-- The exchange over UDP. -/
theorem udpExchange_keeps (address : UpstreamAddress) (exchange : Exchange) :
    Run.Keeps Synchronised (udpExchange address exchange) := by
  refine .bind (fun s hs => ?_) fun socket _ => ?_
  · -- Opening a socket logs nothing.
    have hlog :
        (Env.openUdp.exec s.env : Except ForwardError UdpScript × Env).2.log = s.env.log := by
      unfold Env.openUdp
      rw [Run.exec_step]
      split <;> rfl
    exact hs.quiet (.inr rfl) (hlog.trans (List.append_nil _).symm) rfl
  · refine .bind (checkCall_keeps _) fun _ _ => ?_
    refine .bind (checkCall_keeps _) fun _ _ => ?_
    refine .bind (checkDeadline_keeps _) fun _ _ => ?_
    refine .bind (checkCall_keeps _) fun _ _ => ?_
    refine .bind (record_keeps rfl) fun _ _ => ?_
    refine .bind (checkCall_keeps _) fun _ _ => ?_
    exact .bind .get fun _ _ => udpLoop_keeps address exchange _ _ _

/-- The exchange over either transport. -/
theorem exchangeOver_keeps (transport : Transport) (address : UpstreamAddress)
    (exchange : Exchange) : Run.Keeps Synchronised (exchangeOver transport address exchange) := by
  cases transport with
  | tcp => exact tcpExchange_keeps address exchange
  | udp => exact udpExchange_keeps address exchange

/-- The retry makes no traffic. -/
theorem retryExchange_keeps (exchange : Exchange) (wire : List UInt8) :
    Run.Keeps Synchronised (retryExchange exchange wire) := by
  refine .bind (checkDeadline_keeps _) fun _ _ => ?_
  refine .bind nextTransactionId_keeps fun id _ => ?_
  split
  · exact .throw
  · exact .pure

/-- The turn behind BADCOOKIE makes one exchange at most. -/
theorem finishBadcookie_keeps (address : UpstreamAddress) (exchange : Exchange)
    (response : Response) (transport : Transport) :
    Run.Keeps Synchronised (finishBadcookie address exchange response transport) := by
  have hagain : ∀ exchange wire, Run.Keeps Synchronised (do
      let retry ← retryExchange exchange wire
      tcpExchange address retry) := fun exchange wire =>
    .bind (retryExchange_keeps exchange wire) fun retry _ => tcpExchange_keeps address retry
  unfold finishBadcookie
  split
  · exact .pure
  · exact .throw
  · split
    · exact .pure
    · exact hagain _ _
  · split
    · exact .pure
    · exact hagain _ _
  · refine .bind (retryExchange_keeps _ _) fun retry _ => ?_
    refine .bind (exchangeOver_keeps _ _ _) fun retried _ => ?_
    split
    · exact .pure
    · exact .bind .ofExcept fun wire _ => hagain _ _

/-- A visit makes an exchange and perhaps a second one. -/
theorem visit_keeps (address : UpstreamAddress) (exchange : Exchange) (transport : Transport) :
    Run.Keeps Synchronised (visit address exchange transport) := by
  refine .bind (exchangeOver_keeps _ _ _) fun response _ => ?_
  split
  · exact finishBadcookie_keeps _ _ _ _
  · exact .pure

/-- The start of an attempt makes no traffic. -/
theorem startAttempt_keeps (query : Query) (address : UpstreamAddress) (request : Deadline) :
    Run.Keeps Synchronised (startAttempt query address request) := by
  have hcapped : Run.Keeps Synchronised
      (onEnv (request.capped attemptTimeout) : Run Forwarder ForwardError Deadline) := by
    intro s hs
    have hlog : ((onEnv (request.capped attemptTimeout) :
        Run Forwarder ForwardError Deadline).exec s).2.env.log
          = s.env.log ++ [.now (s.env.clock.head?.map Reading.now)] := by
      unfold Deadline.capped
      rw [onEnv_exec, Run.exec_bind, Env.now_exec]
      rfl
    exact hs.quiet (.inr rfl) hlog rfl
  refine .bind (record_keeps rfl) fun _ _ => ?_
  refine .bind hcapped fun deadline _ => ?_
  refine .bind (checkDeadline_keeps _) fun _ _ => ?_
  exact .bind nextTransactionId_keeps fun id _ => .pure

/-- A walk is a sequence of visits. -/
theorem forwardLoop_keeps (query : Query) (transport : Transport) (request : Deadline)
    (servers : List UpstreamAddress) (lastError : ForwardError) (relayed : Option Response) :
    Run.Keeps Synchronised (forwardLoop query transport request servers lastError relayed) := by
  induction servers generalizing lastError relayed with
  | nil =>
    unfold forwardLoop
    refine .bind (checkDeadline_keeps _) fun _ _ => ?_
    split
    · exact .pure
    · exact .throw
  | cons address rest ih =>
    unfold forwardLoop
    refine .bind (startAttempt_keeps _ _ _) fun exchange _ => ?_
    refine .bind (record_keeps rfl) fun _ _ => ?_
    refine .bind (visit_keeps _ _ _).attempt fun result _ => ?_
    refine .bind (record_keeps rfl) fun _ _ => ?_
    split
    · exact .throw
    · exact ih _ _
    · refine .bind (checkDeadline_keeps _) fun _ _ => ?_
      dsimp only
      split
      · exact .pure
      · exact ih _ _

/-- The states of a forwarder: it starts without a connection, forwards queries and expires an
idle connection. The world it starts in says how every call to the outside ends. -/
inductive Reached : Forwarder → Prop
  | start (env : Env) : Reached ⟨none, env⟩
  | forward {s : Forwarder} (before : Reached s) (query : Query) (upstreams : UpstreamGroup)
      (transport : Transport) (request : Deadline) :
      Reached ((forward query upstreams transport request).exec s).2
  | expireIdle {s : Forwarder} (before : Reached s) :
      Reached ((expireIdle : Run Forwarder ForwardError Unit).exec s).2

/-- In every state of a forwarder the cached stream is synchronised. Whatever state it starts
from, an exchange that fails leaves no stream behind, and an exchange uses the cached stream only
for the address it was cached for and is repeated at most once, after a failure on that stream
and on a new connection. -/
theorem cachedStream_synchronised {s : Forwarder} (h : Reached s) :
    Synchronised s ∧ ∀ (s : Forwarder) (address : UpstreamAddress) (exchange : Exchange),
      (∀ e, ((tcpExchange address exchange).exec s).1 = .error e →
        ((tcpExchange address exchange).exec s).2.tcp = none) ∧
      ∃ new, ((tcpExchange address exchange).exec s).2.env.log = s.env.log ++ new ∧
        ExchangeSteps address exchange.sent.wire s.tcp ((tcpExchange address exchange).exec s).1
          (Event.steps new) := by
  refine ⟨?_, fun s address exchange => ?_⟩
  · induction h with
    | start env => exact fun connection h => nomatch h
    | forward before query upstreams transport request ih =>
      exact forwardLoop_keeps query transport request upstreams.servers .timeout none _ ih
    | expireIdle before ih => exact expireIdle_keeps _ ih
  · obtain ⟨hsettled, -, new, hlog, hsteps, -⟩ := tcpExchange_run address exchange s
    refine ⟨fun e he => ?_, new, hlog, hsteps⟩
    rw [he] at hsettled
    cases hsettled with
    | failed empty => exact empty

/-- A forwarder in a world where one connection delivers two answers, the first in two
pieces. -/
def connected : Forwarder where
  tcp := none
  env := {
    clock := List.replicate 32 ⟨false, 5⟩
    entropy := [.ok 1, .ok 2]
    udp := []
    tcp := [⟨none, [], [.data ((frame (Dns.setId plainAnswer.wire ⟨1⟩)).take 7),
      .data ((frame (Dns.setId plainAnswer.wire ⟨1⟩)).drop 7), .data (frame plainAnswer.wire)], []⟩]
    log := [] }

/-- Two queries on one connection. -/
def twoQueries : Except ForwardError Response × Forwarder :=
  (forward ⟨Dns.plainQuery, ⟨⟨[]⟩, .a, .in⟩⟩ oneServer .tcp ⟨5000000000⟩).exec
    ((forward ⟨Dns.plainQuery, ⟨⟨[]⟩, .a, .in⟩⟩ oneServer .tcp ⟨5000000000⟩).exec connected).2

/-- Two queries over one stream: the second one is sent on the stream that the first one left. -/
theorem cachedStream_synchronised_twoQueries :
    twoQueries.1 = .ok ⟨plainAnswer⟩ ∧ twoQueries.2.tcp.isSome ∧
      .tcpReuse firstServer.socket ∈ twoQueries.2.env.log ∧ Synchronised twoQueries.2 := by
  refine ⟨by decide +kernel, by decide +kernel, by decide +kernel, ?_⟩
  exact (cachedStream_synchronised (((Reached.start connected.env).forward _ _ _ _).forward
    _ _ _ _)).1

end Forwarder

end Sederial
