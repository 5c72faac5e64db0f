import Sederial.Lib.Trace
import Sederial.Proofs.Reparse
import Sederial.Upstream

/-!
# `Sederial.Proofs.Exchange`: what one exchange does to the log

An exchange sends one query to one server and waits for a response it can accept. It may
open a socket, reuse or open a TCP stream, fall back from UDP to TCP and reconnect once.
`ExchangeLog` says what all of this leaves in the log, and `exchangeOver_traced` proves it
for every transport and every behaviour of the peer.

The parameter `T` says which sockets a server address may stand for. `CacheOk T` carries it
over the cached connection, the only stream that outlives a request. With `T a p` as
`p = a.socket` it says that a cached stream leads where its address says; with `T` always
true it says nothing, and the results hold from every state.
-/

set_option autoImplicit false

namespace Sederial

open Sederial.Lib
open Sederial.Dns (Packet Response SentQuery)

/-- The record of the outside world. -/
instance : Logged Env Event := ⟨Env.log⟩

/-- A session writes into the record of its world. -/
instance : Logged Session Event := ⟨fun s => s.env.log⟩

/-- A forwarder writes into the record of its world. -/
instance : Logged Forwarder Event := ⟨fun s => s.env.log⟩

namespace Event

/-- Events between two accepted responses of one visit, when every peer satisfies `K`. -/
def Chatter (K : SocketAddr → Prop) : Event → Prop
  | .now _ | .check _ | .entropy _ => True
  | .udpSend peer _ | .tcpConnect peer | .tcpReuse peer | .tcpSend peer _ | .tcpWrite peer _
  | .tcpRead peer _ => K peer
  | .attempt _ | .visit _ | .outcome _ _ | .accept _ _ => False

/-- A deadline check found the stop flag set. -/
def StopSeen : Event → Prop
  | .check (some reading) => reading.stop = true
  | _ => False

/-- Only a check that read the clock and the flag can have seen the flag. -/
theorem StopSeen.exists_reading {e : Event} (h : e.StopSeen) :
    ∃ reading, e = .check (some reading) ∧ reading.stop = true := by
  unfold StopSeen at h
  split at h
  · exact ⟨_, rfl, h⟩
  · exact h.elim

/-- The responses accepted among some events, in order. -/
def accepted (events : List Event) : List Response :=
  events.filterMap fun
    | .accept _ response => some response
    | _ => none

/-- The accepted responses of two stretches are those of the first and then those of the second. -/
@[simp] theorem accepted_append (es es' : List Event) :
    accepted (es ++ es') = accepted es ++ accepted es' :=
  List.filterMap_append

/-- Chatter accepts nothing. -/
theorem accepted_eq_nil {K : SocketAddr → Prop} {es : List Event}
    (h : ∀ e ∈ es, e.Chatter K) : accepted es = [] := by
  refine List.filterMap_eq_nil_iff.mpr fun e he => ?_
  have hchatter := h e he
  cases e <;> first | rfl | cases hchatter

end Event

/-- An error from elsewhere than the stop flag does not become `cancelled`. -/
theorem ForwardError.ofIo_ne_cancelled {e : IoError} (h : e.source ≠ .cancelled) :
    ForwardError.ofIo e ≠ .cancelled := by
  unfold ofIo
  rw [if_neg h]
  split <;> simp

/-- Nor does an error of the operating system. -/
theorem ForwardError.ofIo_os_ne_cancelled {kind : ErrorKind} :
    ForwardError.ofIo (.os kind) ≠ .cancelled :=
  ofIo_ne_cancelled (by simp [IoError.os])

/-- Chatter that may end in an error of the operating system. -/
abbrev IoChat {α : Type} (K : SocketAddr → Prop) (Q : α → Prop) :
    Except IoError α → List Event → Prop :=
  Emits (Event.Chatter K) Event.StopSeen Q fun e => e.source ≠ .cancelled

/-- Chatter that may end in an exchange error. Only a set stop flag leads to `cancelled`. -/
abbrev Chat {α : Type} (K : SocketAddr → Prop) (Q : α → Prop) :
    Except ForwardError α → List Event → Prop :=
  Emits (Event.Chatter K) Event.StopSeen Q (· ≠ .cancelled)

/-- The conversion that `?` makes keeps chatter. -/
theorem chat_ofIo {σ α : Type} [Logged σ Event] {I : σ → Prop} {m : Run σ IoError α}
    {K : SocketAddr → Prop} {A : α → Prop} (h : Traced I m (IoChat K A)) :
    Traced I (Run.mapError ForwardError.ofIo m) (Chat K A) :=
  h.emits_mapError fun _ => ForwardError.ofIo_ne_cancelled

/-! ### The outside world -/

section

variable {ε α : Type} {K : SocketAddr → Prop} {E : ε → Prop}

/-- A tick of the clock is not an event. -/
theorem Env.tick_log (env : Env) : env.tick.2.log = env.log := by
  unfold tick
  split <;> rfl

/-- A reading of the clock logs the time that it returns. -/
theorem Env.now_logs :
    Traced (fun _ => True) (Env.now : Run Env ε Nat) fun r new =>
      ∃ now, r = .ok now ∧ ∃ time : Option Nat, now = time.getD 0 ∧ new = [Event.now time] := by
  refine .step fun env _ =>
    ⟨trivial, [.now (env.tick.1.map Reading.now)], ?_, _, rfl, _, rfl, rfl⟩
  show env.tick.2.log ++ _ = _
  rw [env.tick_log]
  rfl

/-- A reading of the clock is chatter. -/
theorem Env.now_traced {S : Event → Prop} :
    Traced (fun _ => True) (Env.now : Run Env ε Nat)
      (Emits (Event.Chatter K) S (fun _ => True) E) := by
  refine Env.now_logs.mono ?_
  rintro r new ⟨now, rfl, time, -, rfl⟩
  exact .ok (by simp [Event.Chatter]) trivial

/-- A read of the entropy source logs its answer. -/
theorem Env.readEntropy_logs :
    Traced (fun _ => True) (Env.readEntropy : Run Env ε (Except ErrorKind UInt16)) fun r new =>
      ∃ id, r = .ok id ∧ new = [Event.entropy id] := by
  refine .step fun env _ => ⟨trivial, ?_⟩
  split
  · exact ⟨_, rfl, _, rfl, rfl⟩
  · exact ⟨_, rfl, _, rfl, rfl⟩

/-- A new socket leaves no trace. -/
theorem Env.openUdp_traced :
    Traced (fun _ => True) (Env.openUdp : Run Env ε UdpScript)
      (Emits (Event.Chatter K) Event.StopSeen (fun _ => True) E) := by
  refine .step fun env _ => ⟨trivial, [], ?_, .ok (by simp) trivial⟩
  rw [List.append_nil]
  split <;> rfl

/-- A connection to a permitted peer leads to that peer. -/
theorem Env.connect_traced {peer : SocketAddr} (hpeer : K peer) :
    Traced (fun _ => True) (Env.connect peer) (IoChat K fun stream => K stream.peer) := by
  refine Traced.emits_bind (A := fun _ => True) (.step fun env _ => ⟨trivial, ?_⟩)
    fun script _ => ?_
  · split
    · exact ⟨[.tcpConnect peer], rfl, .ok (by simpa [Event.Chatter] using hpeer) trivial⟩
    · exact ⟨[.tcpConnect peer], rfl, .ok (by simpa [Event.Chatter] using hpeer) trivial⟩
  · split
    · exact .throw (.failed (by simp) (.inl (by simp [IoError.os])))
    · exact .pure (.ok (by simp) hpeer)

/-- An error of a deadline check is `cancelled` only when the reading had the stop flag. -/
theorem Deadline.left_eq_error {deadline : Deadline} {reading : Option Reading} {e : IoError}
    (h : deadline.left reading = .error e) :
    e = .expired ∨ e = .cancelled ∧ Event.StopSeen (.check reading) := by
  unfold left at h
  split at h
  · cases h
    exact .inl rfl
  · split at h
    · rename_i hstop
      cases h
      exact .inr ⟨rfl, hstop⟩
    · split at h
      · cases h
      · cases h
        exact .inl rfl

/-- A deadline check logs the reading on which it decides. -/
theorem Deadline.remaining_logs (deadline : Deadline) :
    Traced (fun _ => True) deadline.remaining fun r new =>
      ∃ reading, r = deadline.left reading ∧ new = [Event.check reading] := by
  refine .bind_ok (G := fun reading new => new = [.check reading])
    (.step fun env _ => ⟨trivial, [.check env.tick.1], ?_, _, rfl, rfl⟩) ?_
  · show env.tick.2.log ++ _ = _
    rw [env.tick_log]
    rfl
  · rintro reading new rfl
    exact .ofExcept ⟨reading, rfl, rfl⟩

/-- A deadline check is chatter, and it ends in `cancelled` only at the stop flag. -/
theorem Deadline.remaining_traced (deadline : Deadline) :
    Traced (fun _ => True) deadline.remaining (IoChat K fun _ => True) := by
  refine deadline.remaining_logs.mono ?_
  rintro r new ⟨reading, rfl, rfl⟩
  refine ⟨by simp [Event.Chatter], fun _ _ => trivial, fun e he => ?_⟩
  rcases Deadline.left_eq_error he with rfl | ⟨-, hstop⟩
  · exact .inl (by simp [IoError.expired])
  · exact .inr ⟨.check reading, by simp, hstop⟩

end

/-! ### Framing on a stream -/

namespace Session

/-- The peer of the stream satisfies `K`. -/
def Linked (K : SocketAddr → Prop) (s : Session) : Prop := K s.stream.peer

section

variable {ε α : Type} {K : SocketAddr → Prop} {E : ε → Prop}

/-- An operation of the world does not touch the stream. -/
theorem onEnv_traced {m : Run Env ε α} {R : Except ε α → List Event → Prop}
    (h : Traced (fun _ => True) m R) : Traced (Linked K) (onEnv m) R :=
  fun s hs => ⟨hs, (h s.env trivial).2⟩

/-- A call on the stream leaves no trace, as long as the stream keeps its peer. -/
theorem call_traced {f : TcpStream → α × TcpStream}
    (hf : ∀ stream, (f stream).2.peer = stream.peer) :
    Traced (Linked K) (call f : Run Session ε α)
      (Emits (Event.Chatter K) Event.StopSeen (fun _ => True) E) := by
  refine .step fun s hs => ⟨?_, [], (List.append_nil _).symm, .ok (by simp) trivial⟩
  show K (f s.stream).2.peer
  rw [hf]
  exact hs

/-- A call that failed on the stream is an error of the operating system. -/
theorem check_traced (answer : Option ErrorKind) :
    Traced (Linked K) (check answer) (IoChat K fun _ => True) := by
  cases answer with
  | none => exact .pure (.ok (by simp) trivial)
  | some kind => exact .throw (.failed (by simp) (.inl (by simp [IoError.os])))

/-- An event about the peer of the stream is chatter. -/
theorem record_traced {e : TcpStream → Event}
    (he : ∀ stream, K stream.peer → (e stream).Chatter K) :
    Traced (Linked K) (record e : Run Session ε Unit)
      (Emits (Event.Chatter K) Event.StopSeen (fun _ => True) E) := by
  refine .modify fun s hs => ⟨hs, [e s.stream], rfl, .ok (fun ev hev => ?_) trivial⟩
  rw [List.mem_singleton.mp hev]
  exact he _ hs

/-- A look at the length of the script leaves no trace. -/
theorem turns_traced :
    Traced (Linked K) (turns : Run Session ε Nat)
      (Emits (Event.Chatter K) Event.StopSeen (fun _ => True) E) :=
  .emits_bind (A := fun _ => True) (.get fun _ _ => .ok (by simp) trivial)
    fun _ _ => .pure (.ok (by simp) trivial)

/-- A deadline check in the middle of a session is chatter. -/
theorem remaining_traced (deadline : Deadline) :
    Traced (Linked K) (discard (onEnv deadline.remaining)) (IoChat K fun _ => True) :=
  (onEnv_traced deadline.remaining_traced).emits_discard trivial

end

end Session

/-- The timeout of a stream has nothing to do with its peer. -/
theorem TcpStream.peer_setReadTimeout (stream : TcpStream) :
    stream.setReadTimeout.2.peer = stream.peer := by
  unfold setReadTimeout
  split <;> rfl

/-- Nor has the other timeout. -/
theorem TcpStream.peer_setWriteTimeout (stream : TcpStream) :
    stream.setWriteTimeout.2.peer = stream.peer := by
  unfold setWriteTimeout
  split <;> rfl

/-- Nor has `TCP_NODELAY`. -/
theorem TcpStream.peer_setNodelay (stream : TcpStream) :
    stream.setNodelay.2.peer = stream.peer := by
  unfold setNodelay
  split <;> rfl

/-- Reading keeps the peer. -/
theorem TcpStream.peer_read (stream : TcpStream) (length : Nat) :
    (stream.read length).2.peer = stream.peer := by
  unfold read
  split
  · rfl
  · rfl
  · rfl
  · split <;> rfl

/-- Writing keeps the peer. -/
theorem TcpStream.peer_write (stream : TcpStream) (bytes : List UInt8) :
    (stream.write bytes).2.peer = stream.peer := by
  unfold write
  split <;> rfl

section

variable {K : SocketAddr → Prop}

/-- Every turn of `read_exact` checks the deadline and reads from the peer of the stream. -/
theorem readExactLoop_traced (length : Nat) (deadline : Deadline) (turns : Nat)
    (got : List UInt8) :
    Traced (Session.Linked K) (readExactLoop length deadline turns got)
      (IoChat K fun _ => True) := by
  induction turns generalizing got with
  | zero =>
    unfold readExactLoop
    split
    · refine (Session.remaining_traced deadline).emits_bind fun _ _ => ?_
      exact .throw (.failed (by simp) (.inl (by simp [IoError.expired])))
    · refine (Session.remaining_traced deadline).emits_bind fun _ _ => ?_
      exact .pure (.ok (by simp) trivial)
  | succ turns ih =>
    unfold readExactLoop
    split
    · refine (Session.remaining_traced deadline).emits_bind fun _ _ => ?_
      refine (Session.call_traced TcpStream.peer_setReadTimeout).emits_bind fun answer _ => ?_
      refine (Session.check_traced answer).emits_bind fun _ _ => ?_
      refine (Session.call_traced fun stream => stream.peer_read _).emits_bind fun result _ => ?_
      split
      · split
        · exact .pure (.ok (by simp) trivial)
        · exact .throw (.failed (by simp) (.inl (by simp)))
      · exact (Session.record_traced fun _ h => h).emits_bind fun _ _ => ih _
      · split
        · exact ih _
        · exact .throw (.failed (by simp) (.inl (by simp [IoError.os])))
    · refine (Session.remaining_traced deadline).emits_bind fun _ _ => ?_
      exact .pure (.ok (by simp) trivial)

/-- `read_exact` is chatter with the peer of the stream. -/
theorem readExact_traced (length : Nat) (deadline : Deadline) :
    Traced (Session.Linked K) (readExact length deadline) (IoChat K fun _ => True) :=
  Session.turns_traced.emits_bind fun _ _ => readExactLoop_traced _ _ _ _

/-- A frame is read from the peer of the stream. -/
theorem readFrame_traced (deadline : Deadline) :
    Traced (Session.Linked K) (readFrame deadline) (IoChat K fun _ => True) := by
  refine (readExact_traced 2 deadline).emits_bind fun field _ => ?_
  split
  · exact .pure (.ok (by simp) trivial)
  · dsimp only
    split
    · refine Traced.emits_bind (A := fun _ => True) (.throw ?_) fun _ _ => ?_
      · exact .failed (by simp) (.inl (by simp))
      · refine (readExact_traced _ deadline).emits_bind fun body _ => ?_
        split
        · exact .throw (.failed (by simp) (.inl (by simp)))
        · exact .pure (.ok (by simp) trivial)
    · refine (readExact_traced _ deadline).emits_bind fun body _ => ?_
      split
      · exact .throw (.failed (by simp) (.inl (by simp)))
      · exact .pure (.ok (by simp) trivial)

/-- Every turn of `write_all` checks the deadline and writes to the peer of the stream. -/
theorem writeLoop_traced (deadline : Deadline) (turns : Nat) (rest : List UInt8) :
    Traced (Session.Linked K) (writeLoop deadline turns rest) (IoChat K fun _ => True) := by
  induction turns generalizing rest with
  | zero =>
    unfold writeLoop
    split
    · refine (Session.remaining_traced deadline).emits_bind fun _ _ => ?_
      exact .throw (.failed (by simp) (.inl (by simp [IoError.expired])))
    · exact Session.remaining_traced deadline
  | succ turns ih =>
    unfold writeLoop
    split
    · refine (Session.remaining_traced deadline).emits_bind fun _ _ => ?_
      refine (Session.call_traced TcpStream.peer_setWriteTimeout).emits_bind fun answer _ => ?_
      refine (Session.check_traced answer).emits_bind fun _ _ => ?_
      refine (Session.call_traced fun stream => stream.peer_write _).emits_bind fun result _ => ?_
      split
      · exact .throw (.failed (by simp) (.inl (by simp)))
      · exact (Session.record_traced fun _ h => h).emits_bind fun _ _ => ih _
      · split
        · exact ih _
        · exact .throw (.failed (by simp) (.inl (by simp [IoError.os])))
    · exact Session.remaining_traced deadline

/-- A frame is written to the peer of the stream. -/
theorem writeFrame_traced (wire : List UInt8) (deadline : Deadline) :
    Traced (Session.Linked K) (writeFrame wire deadline) (IoChat K fun _ => True) := by
  have hloop : Traced (Session.Linked K)
      (do writeLoop deadline (← Session.turns) (frame wire)) (IoChat K fun _ => True) :=
    Session.turns_traced.emits_bind fun _ _ => writeLoop_traced _ _ _
  unfold writeFrame
  split
  · refine Traced.emits_bind (A := fun _ => True) (.throw ?_) fun _ _ => hloop
    exact .failed (by simp) (.inl (by simp))
  · exact hloop

end

/-! ### One exchange -/

/-- What an exchange leaves in the log: chatter with peers in `K`, and the accepted response
when there is one. -/
structure ExchangeLog (K : SocketAddr → Prop) (sent : SentQuery)
    (r : Except ForwardError Response) (new : List Event) : Prop where
  events : ∀ e ∈ new, e.Chatter K ∨ ∃ peer response, e = .accept peer response ∧ K peer
  accepted : Event.accepted new = r.toOption.toList
  value : ∀ response, r = .ok response → sent.Accepts response.packet ∧ response.packet.Parsed
  error : ∀ e, r = .error e → e ≠ .cancelled ∨ ∃ ev ∈ new, ev.StopSeen

namespace ExchangeLog

variable {K : SocketAddr → Prop} {sent : SentQuery} {r : Except ForwardError Response}
  {new pre : List Event}

/-- An exchange that failed has accepted nothing. -/
theorem failed {e : ForwardError} (hchatter : ∀ ev ∈ new, ev.Chatter K)
    (he : e ≠ .cancelled ∨ ∃ ev ∈ new, ev.StopSeen) : ExchangeLog K sent (.error e) new := by
  refine ⟨fun ev hev => .inl (hchatter ev hev), Event.accepted_eq_nil hchatter,
    fun response h => (nomatch h), fun e' h => ?_⟩
  cases h
  exact he

/-- Chatter may come before an exchange. -/
theorem prepend (hpre : ∀ ev ∈ pre, ev.Chatter K) (h : ExchangeLog K sent r new) :
    ExchangeLog K sent r (pre ++ new) := by
  refine ⟨fun ev hev => ?_, ?_, h.value, fun e he => ?_⟩
  · rcases List.mem_append.mp hev with hev | hev
    · exact .inl (hpre ev hev)
    · exact h.events ev hev
  · rw [Event.accepted_append, Event.accepted_eq_nil hpre, List.nil_append, h.accepted]
  · rcases h.error e he with he | ⟨ev, hev, hstop⟩
    · exact .inl he
    · exact .inr ⟨ev, List.mem_append_right pre hev, hstop⟩

/-- Chatter may come after the response is accepted. -/
theorem append {response : Response} {post : List Event}
    (h : ExchangeLog K sent (.ok response) new) (hpost : ∀ ev ∈ post, ev.Chatter K) :
    ExchangeLog K sent (.ok response) (new ++ post) := by
  refine ⟨fun ev hev => ?_, ?_, h.value, fun e he => nomatch he⟩
  · rcases List.mem_append.mp hev with hev | hev
    · exact h.events ev hev
    · exact .inl (hpost ev hev)
  · rw [Event.accepted_append, Event.accepted_eq_nil hpost, List.append_nil, h.accepted]

/-- Nothing is accepted in a failed exchange. -/
theorem chatter_of_error {e : ForwardError} (h : ExchangeLog K sent (.error e) new) :
    ∀ ev ∈ new, ev.Chatter K := by
  intro ev hev
  rcases h.events ev hev with hchatter | ⟨peer, response, rfl, -⟩
  · exact hchatter
  · have hmem : response ∈ Event.accepted new := List.mem_filterMap.mpr ⟨_, hev, rfl⟩
    rw [h.accepted] at hmem
    cases hmem

/-- The acceptance of a response is an exchange of its own. -/
theorem accept {peer : SocketAddr} {response : Response} (hpeer : K peer)
    (h : sent.Accepts response.packet) (hparsed : response.packet.Parsed) :
    ExchangeLog K sent (.ok response) [.accept peer response] := by
  refine ⟨fun ev hev => .inr ⟨peer, response, List.mem_singleton.mp hev, hpeer⟩, rfl,
    fun response' h' => ?_, fun e h' => nomatch h'⟩
  cases h'
  exact ⟨h, hparsed⟩

/-- An exchange behind an operation that only chatters. -/
theorem after {σ α : Type} [Logged σ Event] {I : σ → Prop} {m : Run σ ForwardError α}
    {A : α → Prop} {f : α → Run σ ForwardError Response} (hm : Traced I m (Chat K A))
    (hf : ∀ a, A a → Traced I (f a) (ExchangeLog K sent)) :
    Traced I (m >>= f) (ExchangeLog K sent) :=
  hm.after (fun _ _ hchatter he => .failed hchatter he)
    (fun _ _ _ hpre h => h.prepend hpre) hf

/-- A program that logs an accepted response and returns it. -/
theorem accept_traced {σ : Type} [Logged σ Event] {I : σ → Prop} {response : Response}
    {m : Run σ ForwardError Unit} (h : sent.Accepts response.packet)
    (hparsed : response.packet.Parsed)
    (hm : Traced I m fun r new => ∃ peer, r = .ok () ∧ K peer ∧ new = [.accept peer response]) :
    Traced I (do m; return response) (ExchangeLog K sent) := by
  refine hm.bind ?_ ?_
  · rintro e new ⟨peer, he, -⟩
    cases he
  · rintro _ new ⟨peer, -, hpeer, rfl⟩
    exact .pure (ExchangeLog.accept hpeer h hparsed)

end ExchangeLog

/-- A response that `validate_response` lets through is acceptable for the query. -/
theorem SentQuery.accepts_of_validate {sent : SentQuery} {bytes : List UInt8} {packet : Packet}
    {response : Response} (hparse : Packet.parse bytes = .ok packet)
    (hvalidate : sent.validateResponse packet = some response) :
    sent.Accepts response.packet ∧ response.packet.Parsed := by
  obtain ⟨rfl, haccepts⟩ := Dns.SentQuery.validateResponse_eq_some_iff.mp hvalidate
  exact ⟨haccepts, Packet.parsed_of_parse hparse⟩

section

variable {K : SocketAddr → Prop} (exchange : Exchange)

/-- One exchange on a stream: a frame out, a frame in, and its validation. -/
theorem Exchange.sendOverTcp_traced :
    Traced (Session.Linked K) exchange.sendOverTcp (ExchangeLog K exchange.sent) := by
  unfold sendOverTcp
  refine ExchangeLog.after (Session.record_traced fun _ h => h) fun _ _ => ?_
  refine ExchangeLog.after (chat_ofIo (writeFrame_traced _ _)) fun _ _ => ?_
  refine ExchangeLog.after (chat_ofIo (readFrame_traced _)) fun bytes _ => ?_
  split
  · exact .throw (.failed (by simp) (.inl (by simp)))
  · refine ExchangeLog.after (A := fun _ => True) ((chat_ofIo
      (Session.onEnv_traced exchange.deadline.remaining_traced)).emits_discard trivial)
      fun _ _ => ?_
    split
    · exact .throw (.failed (by simp) (.inl (by simp)))
    · rename_i packet hparse
      split
      · exact .throw (.failed (by simp) (.inl (by simp)))
      · rename_i response hvalidate
        obtain ⟨haccepts, hparsed⟩ := SentQuery.accepts_of_validate hparse hvalidate
        refine ExchangeLog.accept_traced haccepts hparsed (.modify fun s hs => ?_)
        exact ⟨hs, _, rfl, s.stream.peer, rfl, hs, rfl⟩

end

/-! ### Exchanges of a forwarder -/

namespace Forwarder

/-- What `T` says of every address holds of the cached connection. -/
def CacheOk (T : UpstreamAddress → SocketAddr → Prop) (s : Forwarder) : Prop :=
  ∀ connection, s.tcp = some connection → T connection.address connection.stream.peer

section

variable {ε α : Type} {T : UpstreamAddress → SocketAddr → Prop} {K : SocketAddr → Prop}
  {E : ε → Prop}

/-- An operation of the world does not touch the cached connection. -/
theorem onEnv_traced {m : Run Env ε α} {R : Except ε α → List Event → Prop}
    (h : Traced (fun _ => True) m R) : Traced (CacheOk T) (onEnv m) R :=
  fun s hs => ⟨hs, (h s.env trivial).2⟩

/-- An operation that fails with an error of the operating system, inside a forwarder. -/
theorem onIo_traced {m : Run Env IoError α} {A : α → Prop}
    (h : Traced (fun _ => True) m (IoChat K A)) : Traced (CacheOk T) (onIo m) (Chat K A) :=
  chat_ofIo (onEnv_traced h)

/-- The forwarder logs what it records. -/
theorem record_logs (e : Event) :
    Traced (CacheOk T) (record e : Run Forwarder ε Unit) fun r new =>
      ∃ u, r = .ok u ∧ new = [e] :=
  .modify fun _ hs => ⟨hs, [e], rfl, (), rfl, rfl⟩

/-- A permitted event is chatter. -/
theorem record_traced {e : Event} (he : e.Chatter K) :
    Traced (CacheOk T) (record e : Run Forwarder ε Unit)
      (Emits (Event.Chatter K) Event.StopSeen (fun _ => True) E) :=
  .modify fun _ hs => ⟨hs, [e], rfl, .ok (by simpa using he) trivial⟩

/-- A deadline check logs its reading and fails as the reading says. -/
theorem checkDeadline_logs (deadline : Deadline) :
    Traced (CacheOk T) (checkDeadline deadline) fun r new =>
      ∃ reading, new = [Event.check reading] ∧
        ((∃ n, deadline.left reading = .ok n ∧ r = .ok ()) ∨
          ∃ e, deadline.left reading = .error e ∧ r = .error (.ofIo e)) := by
  have hremaining := @onEnv_traced _ _ T _ _ deadline.remaining_logs
  refine Traced.bind (B := fun r new => ∃ reading, new = [Event.check reading] ∧
      ((∃ n, deadline.left reading = .ok n ∧ r = .ok n) ∨
        ∃ e, deadline.left reading = .error e ∧ r = .error (.ofIo e)))
    (hremaining.mapError ?_ ?_) ?_ ?_
  · rintro n new ⟨reading, hleft, rfl⟩
    exact ⟨reading, rfl, .inl ⟨n, hleft.symm, rfl⟩⟩
  · rintro e new ⟨reading, hleft, rfl⟩
    exact ⟨reading, rfl, .inr ⟨e, hleft.symm, rfl⟩⟩
  · rintro e new ⟨reading, rfl, ⟨n, hleft, hr⟩ | ⟨e', hleft, hr⟩⟩
    · cases hr
    · cases hr
      exact ⟨reading, rfl, .inr ⟨e', hleft, rfl⟩⟩
  · rintro n new ⟨reading, rfl, ⟨n', hleft, hr⟩ | ⟨e', hleft, hr⟩⟩
    · exact .pure ⟨reading, rfl, .inl ⟨n', hleft, rfl⟩⟩
    · cases hr

/-- The deadline check of an exchange is chatter. -/
theorem checkDeadline_traced (deadline : Deadline) :
    Traced (CacheOk T) (checkDeadline deadline) (Chat K fun _ => True) :=
  (onIo_traced deadline.remaining_traced).emits_discard trivial

/-- A call that failed is an error of the operating system. -/
theorem checkCall_traced (answer : Option ErrorKind) :
    Traced (CacheOk T) (checkCall answer) (Chat K fun _ => True) := by
  cases answer with
  | none => exact .pure (.ok (by simp) trivial)
  | some kind => exact .throw (.failed (by simp) (.inl ForwardError.ofIo_os_ne_cancelled))

/-- Asking for an ID logs what the entropy source gave. -/
theorem nextTransactionId_logs :
    Traced (CacheOk T) nextTransactionId fun r new =>
      (∃ id, r = .ok ⟨id⟩ ∧ new = [Event.entropy (.ok id)]) ∨
        ∃ kind, r = .error (.ofIo (.os kind)) ∧ new = [Event.entropy (.error kind)] := by
  refine (onEnv_traced Env.readEntropy_logs).bind_ok ?_
  rintro id new rfl
  split
  · exact .pure (.inl ⟨_, rfl, rfl⟩)
  · exact .throw (.inr ⟨_, rfl, rfl⟩)

/-- A fresh transaction ID costs one read of the entropy source. -/
theorem nextTransactionId_traced :
    Traced (CacheOk T) nextTransactionId (Chat K fun _ => True) := by
  refine nextTransactionId_logs.mono ?_
  rintro r new (⟨id, rfl, rfl⟩ | ⟨kind, rfl, rfl⟩)
  · exact .ok (by simp [Event.Chatter]) trivial
  · exact .failed (by simp [Event.Chatter]) (.inl ForwardError.ofIo_os_ne_cancelled)

/-- A cached connection that has been idle for too long is closed without a trace. -/
theorem expireIdle_traced :
    Traced (CacheOk T) (expireIdle : Run Forwarder ε Unit)
      (Emits (Event.Chatter K) Event.StopSeen (fun _ => True) E) := by
  refine .emits_bind (A := fun _ => True) (.get fun _ _ => .ok (by simp) trivial) fun s _ => ?_
  split
  · exact .pure (.ok (by simp) trivial)
  · refine (onEnv_traced Env.now_traced).emits_bind fun now _ => ?_
    split
    · refine .modify fun s _ => ⟨fun _ h => ?_, [], (List.append_nil _).symm, .ok (by simp) trivial⟩
      cases h
    · exact .pure (.ok (by simp) trivial)

/-- A matching cached stream leads to a peer of its address, and the cache is empty
afterwards. -/
theorem takeCached_traced (address : UpstreamAddress) :
    Traced (CacheOk T) (takeCached address)
      (Chat K fun cached => ∀ connection ∈ cached, T address connection.stream.peer) := by
  refine .step fun s hs => ⟨fun _ h => ?_, [], (List.append_nil _).symm, .ok (by simp) ?_⟩
  · cases h
  · intro connection hconnection
    obtain ⟨hcached, haddress⟩ := Option.filter_eq_some_iff.mp hconnection
    rw [← of_decide_eq_true haddress]
    exact hs connection hcached

/-- A connection to a server leads to a socket that its address may stand for. -/
theorem connect_traced {address : UpstreamAddress} (haddress : K address.socket)
    (deadline : Deadline) :
    Traced (CacheOk T) (connect address deadline) (Chat K fun stream => K stream.peer) :=
  (checkDeadline_traced deadline).emits_bind fun _ _ => onIo_traced (Env.connect_traced haddress)

/-- The stream keeps its peer when `TCP_NODELAY` is set. -/
theorem setNodelay_traced {stream : TcpStream} (hstream : K stream.peer) :
    Traced (CacheOk T) (setNodelay stream) (Chat K fun stream => K stream.peer) := by
  have hpeer := stream.peer_setNodelay
  unfold setNodelay
  split
  · exact .throw (.failed (by simp) (.inl ForwardError.ofIo_os_ne_cancelled))
  · rename_i stream' hstream'
    rw [hstream'] at hpeer
    exact .pure (.ok (by simp) (by rw [hpeer]; exact hstream))

/-- A framing program ends with its result and a stream to the same kind of peer. -/
theorem onStream_traced {stream : TcpStream} (hstream : K stream.peer)
    {m : Run Session ForwardError α} {R : Except ForwardError α → List Event → Prop}
    (h : Traced (Session.Linked K) m R) :
    Traced (CacheOk T) (onStream stream m)
      fun r new => ∃ p, r = .ok p ∧ R p.1 new ∧ K p.2.peer := by
  refine .step fun s hs => ?_
  obtain ⟨hK, new, hlog, hR⟩ := h ⟨s.env, stream⟩ hstream
  exact ⟨hs, new, hlog, _, rfl, hR, hK⟩

end

section

variable {T : UpstreamAddress → SocketAddr → Prop} (hT : ∀ address, T address address.socket)
  (address : UpstreamAddress) (exchange : Exchange)

/-- How sending on a stream ends: without a result, or with one and the stream it is on. -/
def SendLog (K : SocketAddr → Prop) (sent : SentQuery) :
    Except ForwardError (Except ForwardError Response × TcpStream) → List Event → Prop
  | .error e, new => ExchangeLog K sent (.error e) new
  | .ok (result, stream), new => ExchangeLog K sent result new ∧ K stream.peer

/-- One exchange on a stream whose peer is permitted. -/
theorem sendOn_traced {K : SocketAddr → Prop} {stream : TcpStream} (hstream : K stream.peer) :
    Traced (CacheOk T) (sendOn exchange stream) (SendLog K exchange.sent) := by
  refine (setNodelay_traced hstream).after (fun e new h he => .failed h he) ?_ fun stream h => ?_
  · intro pre r new hpre hr
    cases r with
    | error e => exact ExchangeLog.prepend hpre hr
    | ok p => exact ⟨hr.1.prepend hpre, hr.2⟩
  · refine (onStream_traced h exchange.sendOverTcp_traced).mono ?_
    rintro r new ⟨p, rfl, hlog, hpeer⟩
    exact ⟨hlog, hpeer⟩

/-- The stream of a successful exchange may be cached, and that adds nothing to the account. -/
theorem cacheSuccess_traced {sent : SentQuery} {result : Except ForwardError Response}
    {stream : TcpStream} {new : List Event} (hlog : ExchangeLog (T address) sent result new)
    (hstream : T address stream.peer) :
    Traced (CacheOk T) (cacheSuccess address result stream)
      fun r new' => ExchangeLog (T address) sent r (new ++ new') := by
  cases result with
  | error e => exact .throw (by rwa [List.append_nil])
  | ok response =>
    have hquiet : Traced (CacheOk T) (cacheSuccess address (.ok response) stream)
        (Emits (Event.Chatter (T address)) (fun _ => False) (· = response) fun _ => False) := by
      refine (onEnv_traced Env.now_traced).emits_bind fun now _ => ?_
      refine .emits_bind (A := fun _ => True) (.modify fun s _ => ?_) fun _ _ =>
        .pure (.ok (by simp) rfl)
      refine ⟨fun connection h => ?_, [], (List.append_nil _).symm, .ok (by simp) trivial⟩
      cases h
      exact hstream
    refine hquiet.mono fun r new' h => ?_
    cases r with
    | error e => simpa using h.error e rfl
    | ok response' =>
      rw [h.value response' rfl]
      exact hlog.append h.events

include hT

/-- The stream of an exchange, cached or new, leads where the address says. -/
theorem streamFor_traced (deadline : Deadline) {cached : Option CachedConnection}
    (hcached : ∀ connection ∈ cached, T address connection.stream.peer) :
    Traced (CacheOk T) (streamFor address deadline cached)
      (Chat (T address) fun stream => T address stream.peer) := by
  cases cached with
  | none => exact connect_traced (hT address) deadline
  | some connection =>
    have hpeer := hcached connection rfl
    exact (record_traced (e := .tcpReuse _) hpeer).emits_bind fun _ _ =>
      .pure (.ok (by simp) hpeer)

/-- An exchange over TCP, whether on a cached stream, on a new one, or on both. -/
theorem tcpExchange_traced :
    Traced (CacheOk T) (tcpExchange address exchange)
      (ExchangeLog (T address) exchange.sent) := by
  refine ExchangeLog.after expireIdle_traced fun _ _ => ?_
  refine ExchangeLog.after (takeCached_traced address) fun cached hcached => ?_
  refine ExchangeLog.after (streamFor_traced hT address _ hcached) fun stream hstream => ?_
  refine (sendOn_traced exchange hstream).bind (fun e new h => h) fun sent new h => ?_
  split
  · rename_i hretry
    -- The reused stream failed, so the exchange starts over on a new one.
    obtain ⟨hlog, -⟩ := h
    obtain ⟨e, he⟩ : ∃ e, sent.1 = .error e := by
      cases hsent : sent.1 with
      | error e => exact ⟨e, rfl⟩
      | ok response => simp [hsent, Except.isOk, Except.toBool] at hretry
    rw [he] at hlog
    suffices hagain : Traced (CacheOk T) (do
        let stream ← connect address exchange.deadline
        let sent ← sendOn exchange stream
        cacheSuccess address sent.1 sent.2) (ExchangeLog (T address) exchange.sent) from
      hagain.mono fun r new' h => h.prepend hlog.chatter_of_error
    refine ExchangeLog.after (connect_traced (hT address) _) fun stream hstream => ?_
    refine (sendOn_traced exchange hstream).bind (fun e new h => h) fun sent new h => ?_
    exact cacheSuccess_traced address h.1 h.2
  · exact cacheSuccess_traced address h.1 h.2

/-- The receive loop on a UDP socket, with the fallback to TCP. -/
theorem udpLoop_traced (turns : Nat) (incoming : List UdpEvent) (invalidResponses : Nat) :
    Traced (CacheOk T) (udpLoop address exchange turns incoming invalidResponses)
      (ExchangeLog (T address) exchange.sent) := by
  -- The induction is on the turns. Every turn checks the deadline first.
  induction turns generalizing incoming invalidResponses with
  | zero =>
    unfold udpLoop
    refine ExchangeLog.after (checkDeadline_traced _) fun _ _ => ?_
    exact .throw (.failed (by simp) (.inl (by simp)))
  | succ turns ih =>
    unfold udpLoop
    refine ExchangeLog.after (checkDeadline_traced _) fun _ _ => ?_
    dsimp only
    split
    · exact ih _ _
    · exact .throw (.failed (by simp) (.inl ForwardError.ofIo_os_ne_cancelled))
    · split
      · exact ih _ _
      · exact .throw (.failed (by simp) (.inl ForwardError.ofIo_os_ne_cancelled))
    -- A datagram has come in: TC asks for TCP, a match is accepted, anything else is counted.
    · rename_i bytes rest
      refine ExchangeLog.after (checkDeadline_traced _) fun _ _ => ?_
      split
      · exact tcpExchange_traced hT address exchange
      · split
        · rename_i response hvalidate
          obtain ⟨haccepts, hparsed⟩ : exchange.sent.Accepts response.packet ∧
              response.packet.Parsed := by
            cases hparse : Packet.parse (bytes.take Dns.maxMessageLength) with
            | error e =>
              rw [hparse] at hvalidate
              cases hvalidate
            | ok packet =>
              rw [hparse] at hvalidate
              exact SentQuery.accepts_of_validate hparse hvalidate
          refine ExchangeLog.accept_traced haccepts hparsed (.modify fun s hs => ?_)
          exact ⟨hs, _, rfl, address.socket, rfl, hT address, rfl⟩
        · split
          · exact .throw (.failed (by simp) (.inl (by simp)))
          · exact ih _ _

/-- An exchange over UDP, with the fall back to TCP when the answer is truncated. -/
theorem udpExchange_traced :
    Traced (CacheOk T) (udpExchange address exchange)
      (ExchangeLog (T address) exchange.sent) := by
  refine ExchangeLog.after (onEnv_traced Env.openUdp_traced) fun socket _ => ?_
  refine ExchangeLog.after (checkCall_traced _) fun _ _ => ?_
  refine ExchangeLog.after (checkCall_traced _) fun _ _ => ?_
  refine ExchangeLog.after (checkDeadline_traced _) fun _ _ => ?_
  refine ExchangeLog.after (checkCall_traced _) fun _ _ => ?_
  refine ExchangeLog.after (record_traced (hT address)) fun _ _ => ?_
  refine ExchangeLog.after (checkCall_traced _) fun _ _ => ?_
  refine ExchangeLog.after (A := fun _ => True) (.get fun _ _ => .ok (by simp) trivial)
    fun s _ => ?_
  exact udpLoop_traced hT address exchange _ _ _

/-- An exchange over either transport. -/
theorem exchangeOver_traced (transport : Transport) :
    Traced (CacheOk T) (exchangeOver transport address exchange)
      (ExchangeLog (T address) exchange.sent) := by
  cases transport with
  | tcp => exact tcpExchange_traced hT address exchange
  | udp => exact udpExchange_traced hT address exchange

end

end Forwarder

end Sederial
