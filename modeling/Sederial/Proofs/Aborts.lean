import Sederial.Lib.Abort
import Sederial.Proofs.Failover

/-!
# `Sederial.Proofs.Aborts`: failures that end a run

Two failures are meant to end a run of `forward`: a deadline check that sees the stop flag, and a
transaction ID that cannot be read. Both are I/O errors like any other, and they pass through the
frame loops, the UDP loop, the reconnect of a reused stream and the cookie retry.

`abortRule` says what heeding them means. Every part of a visit heeds it (`visit_heeds`): the
visit ends with the failure and looks at nothing but the stop flag and the clock on its way out.
The reconnect is the one place that drops a failure. There the next deadline check sees the flag
again, because a set stop flag is never cleared (`Event.StopStays`).

`forward` itself tells only cancellation from the other errors of a visit. A transaction ID that
a cookie retry fails to read (`Event.RetryIdFailed`) ends its visit and not the run.
`forward_aborts` says that every other failure ends the run, also in a run in which such a read
has failed before, and `forward_retries_past_failed_id` is a run that goes on after one.
-/

set_option autoImplicit false

namespace Sederial

open Sederial.Lib
open Sederial.Dns (Packet Query Response plainChallenge plainQuery rootQuery setId)

namespace Event

/-- The failure that an event obliges `forward` to return. -/
def failure : Event → Option IoError
  | .check (some reading) => if reading.stop then some .cancelled else none
  | .entropy (.error kind) => some (.os kind)
  | _ => none

/-- The event is a deadline check. -/
def IsCheck : Event → Prop
  | .check _ => True
  | _ => False

/-- A set stop flag is never cleared: the later check sees what the earlier one saw. -/
def StopStays (e later : Event) : Prop := e.StopSeen → later.IsCheck → later.StopSeen

/-- The event is part of one exchange: it is no look at the entropy source, and no step of the
walk. -/
def InExchange : Event → Prop
  | .entropy _ | .attempt _ | .visit _ | .outcome _ _ => False
  | _ => True

/-- The event is part of a visit: it is no step of the walk. -/
def InVisit : Event → Prop
  | .attempt _ | .visit _ | .outcome _ _ => False
  | _ => True

/-- The event is a deadline check or the end of a visit. -/
def Closing : Event → Prop
  | .check _ | .outcome _ _ => True
  | _ => False

/-- An exchange is part of a visit. -/
theorem InExchange.inVisit {e : Event} (h : e.InExchange) : e.InVisit := by
  cases e <;> first | exact h | trivial

/-- A deadline check may come behind the failure. -/
theorem IsCheck.closing {e : Event} (h : e.IsCheck) : e.Closing := by
  cases e <;> first | exact h | trivial

/-- What obliges `forward` to give up is a set stop flag or a failed read of an ID. -/
theorem failure_cases {e : Event} {err : IoError} (h : e.failure = some err) :
    e.StopSeen ∧ err = .cancelled ∨ ∃ kind, e = .entropy (.error kind) ∧ err = .os kind := by
  unfold failure at h
  split at h
  · split at h
    · rename_i hstop
      cases h
      exact .inl ⟨hstop, rfl⟩
    · cases h
  · cases h
    exact .inr ⟨_, rfl, rfl⟩
  · cases h

/-- A set stop flag obliges. -/
theorem StopSeen.failure {e : Event} (h : e.StopSeen) : e.failure = some .cancelled := by
  obtain ⟨reading, rfl, hstop⟩ := h.exists_reading
  exact if_pos hstop

end Event

/-- Which events of a run end it, with which I/O error. Only deadline checks may follow. -/
def abortRule (admits : Event → Prop) : AbortRule Event IoError where
  admits := admits
  follows := Event.StopStays
  quiet := Event.IsCheck
  abort := Event.failure

/-- The same with the error that `?` converts it to. -/
def forwardRule (admits : Event → Prop) : AbortRule Event ForwardError :=
  (abortRule admits).mapError ForwardError.ofIo

/-- A deadline check that sees the stop flag fails with it. -/
theorem Deadline.left_of_failure {deadline : Deadline} {reading : Option Reading} {err : IoError}
    (h : (Event.check reading).failure = some err) : deadline.left reading = .error err := by
  -- A missing reading stands for an expired deadline, which is no reason to give up.
  rcases Event.failure_cases h with ⟨hstop, rfl⟩ | ⟨kind, hentropy, -⟩
  · cases reading with
    | none => exact hstop.elim
    | some reading => exact if_pos hstop
  · cases hentropy

/-- A deadline check fails with the stop flag that it sees. -/
theorem Deadline.remaining_heeds (deadline : Deadline) :
    Traced (fun _ => True) deadline.remaining (Heeds (abortRule Event.InExchange)) := by
  refine deadline.remaining_logs.mono ?_
  rintro r new ⟨reading, rfl, rfl⟩
  exact .last trivial fun err h => Deadline.left_of_failure h

/-! ### Framing on a stream -/

/-- The stream may lead to any peer. -/
abbrev AnyStream : Session → Prop := Session.Linked fun _ => True

namespace Session

section

variable {ε α : Type} {rule : AbortRule Event ε}

/-- A call on the stream leaves no trace. -/
theorem call_heeds (f : TcpStream → α × TcpStream) :
    Traced AnyStream (call f : Run Session ε α) (Heeds rule) :=
  .step fun _ _ => ⟨trivial, [], (List.append_nil _).symm, .silent⟩

/-- An event that obliges nothing may be recorded. -/
theorem record_heeds {e : TcpStream → Event} (he : ∀ stream, rule.Calm (e stream)) :
    Traced AnyStream (record e : Run Session ε Unit) (Heeds rule) := by
  refine .modify fun s hs => ⟨hs, [e s.stream], rfl, .calm fun ev hev => ?_⟩
  rw [List.mem_singleton.mp hev]
  exact he s.stream

/-- A look at the length of the script leaves no trace. -/
theorem turns_heeds : Traced AnyStream (turns : Run Session ε Nat) (Heeds rule) := by
  refine Traced.heeds_bind (.get fun _ _ => .silent) fun s => ?_
  exact .pure .silent

end

/-- A call that failed obliges nothing. -/
theorem check_heeds {rule : AbortRule Event IoError} (answer : Option ErrorKind) :
    Traced AnyStream (check answer) (Heeds rule) := by
  cases answer with
  | none => exact .pure .silent
  | some kind => exact .throw .silent

/-- A deadline check in the middle of a session. -/
theorem remaining_heeds (deadline : Deadline) :
    Traced AnyStream (discard (onEnv deadline.remaining))
      (Heeds (abortRule Event.InExchange)) :=
  (onEnv_traced deadline.remaining_heeds).heeds_discard

end Session

/-- Reading: every turn checks the deadline first, and a check that fails is the last event. -/
theorem readExactLoop_heeds (length : Nat) (deadline : Deadline) (turns : Nat)
    (got : List UInt8) :
    Traced AnyStream (readExactLoop length deadline turns got)
      (Heeds (abortRule Event.InExchange)) := by
  induction turns generalizing got with
  | zero =>
    unfold readExactLoop
    split
    · exact (Session.remaining_heeds deadline).heeds_bind fun _ => .throw .silent
    · exact (Session.remaining_heeds deadline).heeds_bind fun _ => .pure .silent
  | succ turns ih =>
    -- Every turn starts with the check. What the kernel does next only moves bytes or fails.
    unfold readExactLoop
    split
    · refine (Session.remaining_heeds deadline).heeds_bind fun _ => ?_
      refine (Session.call_heeds TcpStream.setReadTimeout).heeds_bind fun answer => ?_
      refine (Session.check_heeds answer).heeds_bind fun _ => ?_
      refine (Session.call_heeds _).heeds_bind fun result => ?_
      split
      · split
        · exact .pure .silent
        · exact .throw .silent
      · exact (Session.record_heeds fun _ => ⟨trivial, rfl⟩).heeds_bind fun _ => ih _
      · split
        · exact ih got
        · exact .throw .silent
    · exact (Session.remaining_heeds deadline).heeds_bind fun _ => .pure .silent

/-- `read_exact` gives up at a set stop flag. -/
theorem readExact_heeds (length : Nat) (deadline : Deadline) :
    Traced AnyStream (readExact length deadline) (Heeds (abortRule Event.InExchange)) :=
  Session.turns_heeds.heeds_bind fun turns => readExactLoop_heeds length deadline turns []

/-- So does the reading of a frame. -/
theorem readFrame_heeds (deadline : Deadline) :
    Traced AnyStream (readFrame deadline) (Heeds (abortRule Event.InExchange)) := by
  refine (readExact_heeds 2 deadline).heeds_bind fun field => ?_
  cases field with
  | none => exact .pure .silent
  | some lengthBytes =>
    dsimp only
    split
    · -- The length is too short, so the rest of the program does not run.
      refine Traced.heeds_bind (.throw .silent) fun _ => ?_
      refine (readExact_heeds _ deadline).heeds_bind fun body => ?_
      cases body with
      | none => exact .throw .silent
      | some wire => exact .pure .silent
    · refine (readExact_heeds _ deadline).heeds_bind fun body => ?_
      cases body with
      | none => exact .throw .silent
      | some wire => exact .pure .silent

/-- Writing: every turn checks the deadline first. -/
theorem writeLoop_heeds (deadline : Deadline) (turns : Nat) (rest : List UInt8) :
    Traced AnyStream (writeLoop deadline turns rest) (Heeds (abortRule Event.InExchange)) := by
  induction turns generalizing rest with
  | zero =>
    unfold writeLoop
    split
    · exact (Session.remaining_heeds deadline).heeds_bind fun _ => .throw .silent
    · exact Session.remaining_heeds deadline
  | succ turns ih =>
    -- The same for the turns of a write.
    unfold writeLoop
    split
    · refine (Session.remaining_heeds deadline).heeds_bind fun _ => ?_
      refine (Session.call_heeds TcpStream.setWriteTimeout).heeds_bind fun answer => ?_
      refine (Session.check_heeds answer).heeds_bind fun _ => ?_
      refine (Session.call_heeds _).heeds_bind fun result => ?_
      split
      · exact .throw .silent
      · exact (Session.record_heeds fun _ => ⟨trivial, rfl⟩).heeds_bind fun _ => ih _
      · split
        · exact ih rest
        · exact .throw .silent
    · exact Session.remaining_heeds deadline

/-- The writing of a frame gives up at a set stop flag. -/
theorem writeFrame_heeds (wire : List UInt8) (deadline : Deadline) :
    Traced AnyStream (writeFrame wire deadline) (Heeds (abortRule Event.InExchange)) := by
  have hloop : Traced AnyStream (do writeLoop deadline (← Session.turns) (frame wire))
      (Heeds (abortRule Event.InExchange)) :=
    Session.turns_heeds.heeds_bind fun turns => writeLoop_heeds deadline turns (frame wire)
  unfold writeFrame
  split
  · exact Traced.heeds_bind (.throw .silent) fun _ => hloop
  · exact hloop

/-- One exchange on a stream gives up at a set stop flag, with the error as `forward` sees it. -/
theorem Exchange.sendOverTcp_heeds (exchange : Exchange) :
    Traced AnyStream exchange.sendOverTcp (Heeds (forwardRule Event.InExchange)) := by
  unfold sendOverTcp
  refine (Session.record_heeds fun _ => ⟨trivial, rfl⟩).heeds_bind fun _ => ?_
  refine (writeFrame_heeds _ _).heeds_mapError.heeds_bind fun _ => ?_
  refine (readFrame_heeds _).heeds_mapError.heeds_bind fun bytes => ?_
  split
  · exact .throw .silent
  · have hcheck := Session.onEnv_traced (K := fun _ => True) exchange.deadline.remaining_heeds
    refine hcheck.heeds_mapError.heeds_discard.heeds_bind fun _ => ?_
    split
    · exact .throw .silent
    · split
      · exact .throw .silent
      · refine (Session.record_heeds fun _ => ⟨trivial, rfl⟩).heeds_bind fun _ => ?_
        exact .pure .silent

/-! ### Exchanges of a forwarder -/

namespace Forwarder

/-- The cached connection may be any. -/
abbrev AnyCache : Forwarder → Prop := CacheOk fun _ _ => True

section

variable {ε α : Type} {rule : AbortRule Event ForwardError} {admits : Event → Prop}

/-- The forwarder may record an event that obliges nothing. -/
theorem record_heeds {e : Event} (he : rule.Calm e) :
    Traced AnyCache (record e) (Heeds rule) := by
  refine (record_logs e).mono ?_
  rintro r new ⟨u, rfl, rfl⟩
  exact .calm (by simpa using he)

/-- A reading of the clock obliges nothing. -/
theorem now_heeds (hnow : ∀ time, rule.Calm (.now time)) :
    Traced AnyCache (onEnv Env.now) (Heeds rule) := by
  refine (onEnv_traced Env.now_logs).mono ?_
  rintro r new ⟨now, rfl, time, -, rfl⟩
  exact .calm (by simpa using hnow time)

/-- Nor does a new socket. -/
theorem openUdp_heeds : Traced AnyCache (onEnv Env.openUdp) (Heeds rule) := by
  refine onEnv_traced (.step fun env _ => ⟨trivial, [], ?_, .silent⟩)
  rw [List.append_nil]
  split <;> rfl

/-- Nor does a call that failed. -/
theorem checkCall_heeds (answer : Option ErrorKind) :
    Traced AnyCache (checkCall answer) (Heeds rule) := by
  cases answer with
  | none => exact .pure .silent
  | some kind => exact .throw .silent

/-- Nor does `TCP_NODELAY`. -/
theorem setNodelay_heeds (stream : TcpStream) :
    Traced AnyCache (setNodelay stream) (Heeds rule) := by
  unfold setNodelay
  split
  · exact .throw .silent
  · exact .pure .silent

/-- Nor does a look at the cached connection. -/
theorem takeCached_heeds (address : UpstreamAddress) :
    Traced AnyCache (takeCached address) (Heeds rule) :=
  .step fun _ _ => ⟨fun _ h => (nomatch h), [], (List.append_nil _).symm, .silent⟩

/-- Nor does the end of a connection that was idle for too long. -/
theorem expireIdle_heeds (hnow : ∀ time, rule.Calm (.now time)) :
    Traced AnyCache expireIdle (Heeds rule) := by
  refine Traced.heeds_bind (.get fun _ _ => .silent) fun s => ?_
  split
  · exact .pure .silent
  · refine (now_heeds hnow).heeds_bind fun now => ?_
    split
    · exact .modify fun _ _ => ⟨fun _ h => (nomatch h), [], (List.append_nil _).symm, .silent⟩
    · exact .pure .silent

/-- A deadline check heeds what it sees, and it is the next event of the run. -/
theorem checkDeadline_looks (hcheck : ∀ reading, admits (.check reading)) (deadline : Deadline) :
    Traced AnyCache (checkDeadline deadline) fun r new =>
      Heeds (forwardRule admits) r new ∧ ∃ reading, new = [.check reading] := by
  refine (checkDeadline_logs deadline).mono ?_
  rintro r new ⟨reading, rfl, hleft⟩
  refine ⟨.last (hcheck reading) fun err habort => ?_, reading, rfl⟩
  obtain ⟨e, hfailure, rfl⟩ := Option.map_eq_some_iff.mp habort
  have herror := @Deadline.left_of_failure deadline reading e hfailure
  rcases hleft with ⟨n, hok, -⟩ | ⟨e', he', rfl⟩
  · rw [herror] at hok
    cases hok
  · rw [herror] at he'
    cases he'
    rfl

/-- The deadline check of an exchange fails with the stop flag that it sees. -/
theorem checkDeadline_heeds (hcheck : ∀ reading, admits (.check reading)) (deadline : Deadline) :
    Traced AnyCache (checkDeadline deadline) (Heeds (forwardRule admits)) :=
  (checkDeadline_looks hcheck deadline).mono fun _ _ h => h.1

/-- An ID that cannot be read ends the program with the error of the read. -/
theorem nextTransactionId_heeds (hentropy : ∀ id, admits (.entropy id)) :
    Traced AnyCache nextTransactionId (Heeds (forwardRule admits)) := by
  refine nextTransactionId_logs.mono ?_
  rintro r new (⟨id, rfl, rfl⟩ | ⟨kind, rfl, rfl⟩)
  · exact .last (hentropy _) nofun
  · refine .last (hentropy _) fun err habort => ?_
    cases habort
    rfl

end

section

variable (address : UpstreamAddress) (exchange : Exchange)

/-- Connecting starts with a deadline check. -/
theorem connect_heeds (deadline : Deadline) :
    Traced AnyCache (connect address deadline) fun r new =>
      Heeds (forwardRule Event.InExchange) r new ∧
        ∃ reading rest, new = .check reading :: rest := by
  have hconnect : Traced AnyCache (onIo (Env.connect address.socket))
      (Heeds (forwardRule Event.InExchange)) := by
    refine Traced.heeds_mapError (onEnv_traced ?_)
    refine Traced.heeds_bind (.step fun env _ => ⟨trivial, [.tcpConnect address.socket], ?_⟩)
      fun script => ?_
    · split
      · exact ⟨rfl, .calm (by simp [AbortRule.Calm, abortRule, Event.InExchange, Event.failure])⟩
      · exact ⟨rfl, .calm (by simp [AbortRule.Calm, abortRule, Event.InExchange, Event.failure])⟩
    · split
      · exact .throw .silent
      · exact .pure .silent
  refine (@checkDeadline_looks Event.InExchange (fun _ => trivial) deadline).bind ?_ ?_
  · rintro e new ⟨h, reading, rfl⟩
    exact ⟨h.error, reading, [], rfl⟩
  · rintro _ new ⟨h, reading, rfl⟩
    exact hconnect.mono fun r new' h' => ⟨h.append_ok h', reading, new', rfl⟩

/-- The stream of an exchange, cached or new. -/
theorem streamFor_heeds (deadline : Deadline) (cached : Option CachedConnection) :
    Traced AnyCache (streamFor address deadline cached)
      (Heeds (forwardRule Event.InExchange)) := by
  cases cached with
  | none => exact (connect_heeds address deadline).mono fun _ _ h => h.1
  | some connection =>
    refine (record_heeds ⟨trivial, rfl⟩).heeds_bind fun _ => ?_
    exact .pure .silent

/-- Sending on a stream fails on its own, or gives the result of the exchange. -/
theorem sendOn_heeds (stream : TcpStream) :
    Traced AnyCache (sendOn exchange stream) fun r new =>
      Heeds (forwardRule Event.InExchange) (r.bind Prod.fst) new := by
  refine (@setNodelay_heeds (forwardRule Event.InExchange) stream).bind
    (fun e new h => h.error) fun stream new h => ?_
  refine (onStream_traced (K := fun _ => True) trivial exchange.sendOverTcp_heeds).mono ?_
  rintro r new' ⟨sent, rfl, hsent, -⟩
  exact h.append_ok hsent

/-- What is done with the stream behind the exchange obliges nothing. -/
theorem cacheSuccess_heeds {result : Except ForwardError Response} {stream : TcpStream}
    {new : List Event} (h : Heeds (forwardRule Event.InExchange) result new) :
    Traced AnyCache (cacheSuccess address result stream)
      fun r new' => Heeds (forwardRule Event.InExchange) r (new ++ new') := by
  cases result with
  | error e => exact .throw (by rwa [List.append_nil])
  | ok response =>
    suffices hcache : Traced AnyCache (cacheSuccess address (.ok response) stream)
        (Heeds (forwardRule Event.InExchange)) from hcache.mono fun r new' h' => h.append_ok h'
    refine (now_heeds fun _ => ⟨trivial, rfl⟩).heeds_bind fun now => ?_
    refine Traced.heeds_bind (.modify fun s _ => ?_) fun _ => .pure .silent
    exact ⟨fun _ _ => trivial, [], (List.append_nil _).symm, .silent⟩

/-- The second try on a new stream. -/
theorem reconnect_heeds :
    Traced AnyCache (do
      let stream ← connect address exchange.deadline
      let sent ← sendOn exchange stream
      cacheSuccess address sent.1 sent.2) fun r new =>
      Heeds (forwardRule Event.InExchange) r new ∧
        ∃ reading rest, new = .check reading :: rest := by
  refine (connect_heeds address exchange.deadline).bind ?_ ?_
  · rintro e new ⟨h, hfirst⟩
    exact ⟨h.error, hfirst⟩
  · rintro stream new ⟨h, reading, rest, rfl⟩
    refine Traced.mono (R := Heeds (forwardRule Event.InExchange)) ?_ fun r new' h' =>
      ⟨h.append_ok h', reading, rest ++ new', rfl⟩
    refine (sendOn_heeds exchange stream).bind (fun e new h => h) fun sent new h => ?_
    exact cacheSuccess_heeds address h

/-- A stop flag seen while a reused stream was in use is seen again by the reconnect. -/
theorem tcpExchange_heeds :
    Traced AnyCache (tcpExchange address exchange) (Heeds (forwardRule Event.InExchange)) := by
  refine (expireIdle_heeds fun _ => ⟨trivial, rfl⟩).heeds_bind fun _ => ?_
  refine (takeCached_heeds address).heeds_bind fun cached => ?_
  refine (streamFor_heeds address _ cached).heeds_bind fun stream => ?_
  -- Until here a failure ends the exchange with `?`. The result of sending does not.
  refine (sendOn_heeds exchange stream).bind (fun e new h => h) fun sent new h => ?_
  split
  · refine (reconnect_heeds address exchange).mono ?_
    rintro r new' ⟨h', reading, rest, rfl⟩
    refine Heeds.again (r := sent.1) h h' trivial fun e he err habort hfollows => ?_
    obtain ⟨err, hfailure, rfl⟩ := Option.map_eq_some_iff.mp habort
    rcases Event.failure_cases hfailure with ⟨hstop, rfl⟩ | ⟨kind, rfl, -⟩
    · show (Event.check reading).failure.map ForwardError.ofIo = _
      rw [(hfollows hstop trivial).failure]
      rfl
    · -- An exchange does not look at the entropy source.
      exact (h.events _ he).elim
  · exact cacheSuccess_heeds address h

/-- The receive loop on a UDP socket, with the fallback to TCP. -/
theorem udpLoop_heeds (turns : Nat) (incoming : List UdpEvent) (invalidResponses : Nat) :
    Traced AnyCache (udpLoop address exchange turns incoming invalidResponses)
      (Heeds (forwardRule Event.InExchange)) := by
  have hcheck := @checkDeadline_heeds Event.InExchange (fun _ => trivial) exchange.deadline
  induction turns generalizing incoming invalidResponses with
  | zero =>
    unfold udpLoop
    exact hcheck.heeds_bind fun _ => .throw .silent
  | succ turns ih =>
    unfold udpLoop
    refine hcheck.heeds_bind fun _ => ?_
    dsimp only
    split
    · -- Nothing arrived: the poll timed out.
      exact ih [] invalidResponses
    · exact .throw .silent
    · split
      · exact ih _ invalidResponses
      · exact .throw .silent
    · refine hcheck.heeds_bind fun _ => ?_
      split
      · -- A truncated response starts over on TCP. Other datagrams are accepted or count as
        -- invalid.
        exact tcpExchange_heeds address exchange
      · split
        · refine (record_heeds ⟨trivial, rfl⟩).heeds_bind fun _ => ?_
          exact .pure .silent
        · split
          · exact .throw .silent
          · exact ih _ _

/-- An exchange over UDP gives up at a set stop flag. -/
theorem udpExchange_heeds :
    Traced AnyCache (udpExchange address exchange) (Heeds (forwardRule Event.InExchange)) := by
  have hcheck := @checkDeadline_heeds Event.InExchange (fun _ => trivial) exchange.deadline
  refine openUdp_heeds.heeds_bind fun socket => ?_
  refine (checkCall_heeds socket.bind).heeds_bind fun _ => ?_
  refine (checkCall_heeds socket.connect).heeds_bind fun _ => ?_
  refine hcheck.heeds_bind fun _ => ?_
  refine (checkCall_heeds socket.setWriteTimeout).heeds_bind fun _ => ?_
  refine (record_heeds ⟨trivial, rfl⟩).heeds_bind fun _ => ?_
  refine (checkCall_heeds socket.send).heeds_bind fun _ => ?_
  refine Traced.heeds_bind (.get fun _ _ => .silent) fun s => ?_
  exact udpLoop_heeds address exchange _ socket.incoming 0

/-- An exchange over either transport, as a part of a visit. -/
theorem exchangeOver_heeds (transport : Transport) :
    Traced AnyCache (exchangeOver transport address exchange)
      (Heeds (forwardRule Event.InVisit)) := by
  have hwiden : ∀ {r : Except ForwardError Response} {new},
      Heeds (forwardRule Event.InExchange) r new → Heeds (forwardRule Event.InVisit) r new :=
    fun h => h.widen fun _ he => he.inVisit
  cases transport with
  | tcp => exact (tcpExchange_heeds address exchange).mono fun _ _ h => hwiden h
  | udp => exact (udpExchange_heeds address exchange).mono fun _ _ h => hwiden h

/-! ### One visit -/

/-- A retry reads its ID within the visit and fails with it. -/
theorem retryExchange_heeds (wire : List UInt8) :
    Traced AnyCache (retryExchange exchange wire) (Heeds (forwardRule Event.InVisit)) := by
  refine (checkDeadline_heeds (fun _ => trivial) exchange.deadline).heeds_bind fun _ => ?_
  refine (nextTransactionId_heeds fun _ => trivial).heeds_bind fun id => ?_
  split
  · exact .throw .silent
  · exact .pure .silent

/-- The turn behind BADCOOKIE, with a retry or over TCP. -/
theorem finishBadcookie_heeds (response : Response) (transport : Transport) :
    Traced AnyCache (finishBadcookie address exchange response transport)
      (Heeds (forwardRule Event.InVisit)) := by
  -- Sending a message once more, over TCP.
  have hagain : ∀ exchange wire, Traced AnyCache (do
      let retry ← retryExchange exchange wire
      tcpExchange address retry) (Heeds (forwardRule Event.InVisit)) := by
    intro exchange wire
    refine (retryExchange_heeds exchange wire).heeds_bind fun retry => ?_
    exact exchangeOver_heeds address retry .tcp
  unfold finishBadcookie
  split
  · exact .pure .silent
  · exact .throw .silent
  · split
    · exact .pure .silent
    · -- The cookie is current, or its rewrite would move other records: the same bytes go out
      -- over TCP.
      exact hagain exchange _
  · split
    · exact .pure .silent
    · exact hagain exchange _
  · refine (retryExchange_heeds exchange _).heeds_bind fun retry => ?_
    refine (exchangeOver_heeds address retry transport).heeds_bind fun retried => ?_
    split
    · exact .pure .silent
    · -- The retry was answered with BADCOOKIE again.
      exact Traced.heeds_bind (.ofExcept .silent) fun wire => hagain retry wire

/-- A visit ends with the failure of any part of it. -/
theorem visit_heeds (transport : Transport) :
    Traced AnyCache (visit address exchange transport) (Heeds (forwardRule Event.InVisit)) := by
  refine (exchangeOver_heeds address exchange transport).heeds_bind fun response => ?_
  split
  · exact finishBadcookie_heeds address exchange response transport
  · exact .pure .silent

end

/-! ### The walk over a group -/

/-- The events so far end within a visit: the last visit that started has not ended. -/
def WithinVisit (pre : List Event) : Prop :=
  ∃ before a body, pre = before ++ .visit a :: body ∧ ∀ b result, Event.outcome b result ∉ body

/-- A visit that has not ended is still under way when more came before it. -/
theorem WithinVisit.append_left {pre : List Event} (h : WithinVisit pre) (first : List Event) :
    WithinVisit (first ++ pre) := by
  obtain ⟨before, a, body, rfl, hbody⟩ := h
  exact ⟨first ++ before, a, body, (List.append_assoc _ _ _).symm, hbody⟩

/-- The event behind `pre` is a failed read of a transaction ID within a visit, which is the
read for a cookie retry. -/
def RetryIdFailed (pre : List Event) (e : Event) : Prop :=
  WithinVisit pre ∧ ∃ kind, e = .entropy (.error kind)

/-- The run gives up as `Event.failure` obliges it to, and visits no server afterwards. The
failed reads of the IDs of retries are left out. -/
def GivesUp (r : Except ForwardError Response) (new : List Event) : Prop :=
  new.Pairwise Event.StopStays → ∀ pre e post err, new = pre ++ e :: post →
    e.failure = some err → ¬ RetryIdFailed pre e →
      r = .error (.ofIo err) ∧ ∀ later ∈ post, later.Closing

namespace GivesUp

variable {α : Type} {admits : Event → Prop} {r : Except ForwardError Response}
  {new pre body : List Event}

/-- A run whose every failure ends it gives up. -/
theorem of_heeds (h : Heeds (forwardRule admits) r new) : GivesUp r new := by
  intro hstop pre e post err hnew hfailure _
  obtain ⟨hr, hquiet⟩ := h.ends hstop pre e post _ hnew
    (congrArg (Option.map ForwardError.ofIo) hfailure)
  exact ⟨hr, fun later hmem => (hquiet later hmem).closing⟩

/-- A part of the run without a failure that counts leaves the rest of it to give up. -/
theorem prepend_calm
    (hpre : ∀ pre' e post, pre = pre' ++ e :: post → e.failure = none ∨ RetryIdFailed pre' e)
    (h : GivesUp r new) : GivesUp r (pre ++ new) := by
  intro hstop pre' e post err hnew hfailure hid
  rcases append_eq_append_cons hnew with ⟨mid, hfirst, -⟩ | ⟨mid, rfl, hsecond⟩
  · rcases hpre pre' e mid hfirst with hnone | hretry
    · rw [hnone] at hfailure
      cases hfailure
    · exact absurd hretry hid
  · -- What is within a visit of the rest is within that visit of the whole run.
    exact h (List.pairwise_append.mp hstop).2.1 mid e post err hsecond hfailure
      fun hretry => hid ⟨hretry.1.append_left pre, hretry.2⟩

/-- A part of the run that ended in a value leaves the rest of it to give up. -/
theorem prepend {a : α} (hpre : Heeds (forwardRule admits) (.ok a) pre) (h : GivesUp r new) :
    GivesUp r (pre ++ new) := by
  intro hstop
  have hnone := (hpre.ends (List.pairwise_append.mp hstop).1).none_of_ok
  refine prepend_calm (fun pre' e post hnew => .inl ?_) h hstop
  have habort : e.failure.map ForwardError.ofIo = none := hnone e (by simp [hnew])
  exact Option.map_eq_none_iff.mp habort

/-- An event that is no failure leaves the rest of the run to give up. -/
theorem cons {e : Event} (he : e.failure = none) (h : GivesUp r new) :
    GivesUp r (e :: new) := by
  refine @prepend_calm r new [e] (fun pre' e' post hnew => .inl ?_) h
  have hmem : e' ∈ [e] := by simp [hnew]
  rw [List.mem_singleton.mp hmem]
  exact he

/-- A visit that ends the run. -/
theorem ending {a : UpstreamAddress} (h : Heeds (forwardRule Event.InVisit) r body) :
    GivesUp r (.visit a :: (body ++ [.outcome a r])) := by
  refine cons rfl fun hstop pre e post err hnew hfailure _ => ?_
  rcases append_eq_append_cons hnew with ⟨mid, hbody, rfl⟩ | ⟨mid, -, hlast⟩
  · obtain ⟨hr, hquiet⟩ := h.ends (List.pairwise_append.mp hstop).1 pre e mid _ hbody
      (congrArg (Option.map ForwardError.ofIo) hfailure)
    refine ⟨hr, fun later hmem => ?_⟩
    rcases List.mem_append.mp hmem with hmem | hmem
    · exact (hquiet later hmem).closing
    · rw [List.mem_singleton.mp hmem]
      trivial
  · -- The end of the visit is no failure.
    have hmem : e ∈ [Event.outcome a r] := by simp [hlast]
    rw [List.mem_singleton.mp hmem] at hfailure
    cases hfailure

/-- A visit that was not cancelled leaves it to the rest of the run to give up. -/
theorem turn {a : UpstreamAddress} {result : Except ForwardError Response}
    (h : Heeds (forwardRule Event.InVisit) result body) (hresult : result ≠ .error .cancelled)
    (hnext : GivesUp r new) :
    GivesUp r (.visit a :: (body ++ .outcome a result :: new)) := by
  intro hstop
  have hvisit : GivesUp r ((.visit a :: body) ++ .outcome a result :: new) := by
    refine prepend_calm (fun pre e post hpre => ?_) (hnext.cons rfl)
    rcases List.cons_eq_append_iff.mp hpre with ⟨rfl, hcons⟩ | ⟨before, rfl, hbody⟩
    · cases hcons
      exact .inl rfl
    · cases hfailure : e.failure with
      | none => exact .inl rfl
      | some err =>
        rcases Event.failure_cases hfailure with ⟨-, rfl⟩ | ⟨kind, rfl, -⟩
        · -- A cancellation would have been the result of the visit.
          have hends := h.ends (List.pairwise_append.mp (List.pairwise_cons.mp hstop).2).1
          exact (hresult (hends before e post .cancelled hbody
            (congrArg (Option.map ForwardError.ofIo) hfailure)).1).elim
        · -- Within the visit, a failed read is that of a retry.
          refine .inr ⟨⟨[], a, before, rfl, fun b result hmem => ?_⟩, kind, rfl⟩
          have hin := h.events (.outcome b result) (by simp [hbody, hmem])
          exact hin
  exact hvisit hstop

end GivesUp

section

variable (q : Query) (transport : Transport) (request : Deadline)

/-- The start of an attempt: a failed read of its ID ends the run. -/
theorem startAttempt_heeds (address : UpstreamAddress) :
    Traced AnyCache (startAttempt q address request) (Heeds (forwardRule fun _ => True)) := by
  have hbudget : Traced AnyCache (onEnv (request.capped attemptTimeout))
      (Heeds (forwardRule fun _ => True)) := by
    refine onEnv_traced (Traced.heeds_bind (Env.now_logs.mono ?_) fun now => .pure .silent)
    rintro r new ⟨now, rfl, time, -, rfl⟩
    exact .calm (by simp [AbortRule.Calm, forwardRule, abortRule, AbortRule.mapError,
      Event.failure])
  refine (record_heeds ⟨trivial, rfl⟩).heeds_bind fun _ => ?_
  refine hbudget.heeds_bind fun deadline => ?_
  refine (checkDeadline_heeds (fun _ => trivial) deadline).heeds_bind fun _ => ?_
  refine (nextTransactionId_heeds fun _ => trivial).heeds_bind fun id => ?_
  exact .pure .silent

/-- The walk gives up whenever a part of it is obliged to. -/
theorem forwardLoop_givesUp (servers : List UpstreamAddress) (last : ForwardError)
    (relayed : Option Response) :
    Traced AnyCache (forwardLoop q transport request servers last relayed) GivesUp := by
  have hcheck := @checkDeadline_heeds (fun _ => True) (fun _ => trivial) request
  -- The induction is on the servers that are left. A turn that does not end the run saw no
  -- failure, so what remains is the obligation of the rest.
  induction servers generalizing last relayed with
  | nil =>
    refine (hcheck.heeds_bind fun _ => ?_).mono fun r new h => GivesUp.of_heeds h
    cases relayed with
    | some response => exact .pure .silent
    | none => exact .throw .silent
  | cons a rest ih =>
    refine (startAttempt_heeds q request a).bind (fun e pre h => .of_heeds h.error)
      fun exchange pre hstart => ?_
    refine Traced.mono (R := GivesUp) ?_ fun r new h => h.prepend hstart
    refine (record_logs _).bind_ok ?_
    rintro _ _ rfl
    refine Traced.bind_ok (G := Heeds (forwardRule Event.InVisit))
      ((visit_heeds a exchange transport).attempt fun r body h => ⟨r, rfl, h⟩)
      fun result body hbody => ?_
    refine (record_logs _).bind_ok ?_
    rintro _ _ rfl
    split
    · -- `forward` returns a cancellation at once.
      exact .throw (.ending hbody)
    · -- Any other error of a visit is recorded, and the walk goes on.
      rename_i error hne
      refine (ih error relayed).mono fun r new h => ?_
      exact h.turn hbody fun h => hne (Except.error.inj h)
    · rename_i response
      refine Traced.mono (R := GivesUp) ?_ fun r new h => h.turn hbody nofun
      refine hcheck.bind (fun e new h => .of_heeds h.error) fun _ new h => ?_
      refine Traced.mono (R := GivesUp) ?_ fun r new' h' => h'.prepend h
      dsimp only
      split
      · exact .pure (@GivesUp.of_heeds (fun _ => True) _ _ .silent)
      · exact ih _ _

end

/-- Abort conditions really abort. An ID that cannot be read and a deadline check that sees the
stop flag end the run, unless the ID was one for a cookie retry. `forward` returns that failure,
and it only ends the current visit and checks its deadline afterwards, so no server is
contacted. -/
theorem forward_aborts (q : Query) (upstreams : UpstreamGroup) (transport : Transport)
    (request : Deadline) (s : Forwarder) {new : List Event}
    (hlog : ((forward q upstreams transport request).exec s).2.env.log = s.env.log ++ new)
    (hstop : new.Pairwise Event.StopStays) :
    ∀ pre e post err, new = pre ++ e :: post → e.failure = some err → ¬ RetryIdFailed pre e →
      ((forward q upstreams transport request).exec s).1 = .error (.ofIo err) ∧
        ∀ later ∈ post, later.Closing := by
  obtain ⟨-, new', hlog', hgives⟩ := forwardLoop_givesUp q transport request
    upstreams.servers .timeout none s fun _ _ => trivial
  obtain rfl : new' = new := List.append_cancel_left (hlog'.symm.trans hlog)
  exact hgives hstop

/-- A world in which the first server asks for a server cookie, the entropy source fails when
the retry asks it for an ID, and the stop flag is set while the second server is waited for. -/
def stopping : Forwarder where
  tcp := none
  env := {
    clock := List.replicate 9 ⟨false, 5⟩ ++ [⟨true, 5⟩]
    entropy := [.ok 1, .error (.other 5), .ok 2]
    udp := [⟨none, none, none, none, [.datagram (setId plainChallenge.wire ⟨1⟩)]⟩,
      ⟨none, none, none, none, []⟩]
    tcp := []
    log := [] }

/-- What a run in that world logs before it sees the flag. -/
def beforeStop : List Event :=
  [.attempt firstServer, .now (some 5), .check (some ⟨false, 5⟩), .entropy (.ok 1),
    .visit firstServer, .check (some ⟨false, 5⟩),
    .udpSend firstServer.socket (plainQuery.withId ⟨1⟩), .check (some ⟨false, 5⟩),
    .check (some ⟨false, 5⟩), .accept firstServer.socket ⟨plainChallenge.renumbered ⟨1⟩⟩,
    .check (some ⟨false, 5⟩), .entropy (.error (.other 5)),
    .outcome firstServer (.error (.io (.os (.other 5)))), .attempt secondServer, .now (some 5),
    .check (some ⟨false, 5⟩), .entropy (.ok 2), .visit secondServer, .check (some ⟨false, 5⟩),
    .udpSend secondServer.socket (plainQuery.withId ⟨2⟩)]

/-- A run that sees the stop flag ends with it, although it went on after the failed read of the
ID of a retry. -/
theorem forward_aborts_stopping :
    ((forward ⟨plainQuery, ⟨⟨[]⟩, .a, .in⟩⟩ twoServers .udp ⟨5000000000⟩).exec stopping).1
        = .error .cancelled ∧
      ∀ later ∈ [Event.outcome secondServer (.error .cancelled)], later.Closing := by
  have hlog : ((forward ⟨plainQuery, ⟨⟨[]⟩, .a, .in⟩⟩ twoServers .udp ⟨5000000000⟩).exec
      stopping).2.env.log = [] ++ (beforeStop ++ .check (some ⟨true, 5⟩) ::
        [.outcome secondServer (.error .cancelled)]) := by
    decide +kernel
  refine forward_aborts _ _ _ _ stopping hlog ?_ beforeStop _ _ .cancelled rfl rfl ?_
  · simp [beforeStop, Event.StopStays, Event.StopSeen, Event.IsCheck]
  · -- The failure is a check, and no read of an ID.
    rintro ⟨-, kind, hentropy⟩
    cases hentropy

/-- A world in which the first server asks for a server cookie, the entropy source fails when
the retry asks it for an ID, and the second server answers. -/
def unreadable : Forwarder where
  tcp := none
  env := {
    clock := List.replicate 24 ⟨false, 5⟩
    entropy := [.ok 1, .error (.other 5), .ok 2]
    udp := [⟨none, none, none, none, [.datagram (setId plainChallenge.wire ⟨1⟩)]⟩,
      ⟨none, none, none, none, [.datagram plainAnswer.wire]⟩]
    tcp := []
    log := [] }

/-- The failed read of the ID of a retry ends neither the run nor its walk: the second server is
sent the query, and its answer is returned. -/
theorem forward_retries_past_failed_id :
    ∃ pre post,
      ((forward ⟨plainQuery, ⟨⟨[]⟩, .a, .in⟩⟩ twoServers .udp ⟨5000000000⟩).exec
          unreadable).2.env.log
        = pre ++ .entropy (.error (.other 5)) :: post ∧
      Event.udpSend secondServer.socket (plainQuery.withId ⟨2⟩) ∈ post ∧
      ((forward ⟨plainQuery, ⟨⟨[]⟩, .a, .in⟩⟩ twoServers .udp ⟨5000000000⟩).exec unreadable).1
        = .ok ⟨plainAnswer⟩ :=
  ⟨[.attempt firstServer, .now (some 5), .check (some ⟨false, 5⟩), .entropy (.ok 1),
      .visit firstServer, .check (some ⟨false, 5⟩),
      .udpSend firstServer.socket (plainQuery.withId ⟨1⟩), .check (some ⟨false, 5⟩),
      .check (some ⟨false, 5⟩),
      .accept firstServer.socket ⟨plainChallenge.renumbered ⟨1⟩⟩,
      .check (some ⟨false, 5⟩)],
    [.outcome firstServer (.error (.io (.os (.other 5)))), .attempt secondServer, .now (some 5),
      .check (some ⟨false, 5⟩), .entropy (.ok 2), .visit secondServer, .check (some ⟨false, 5⟩),
      .udpSend secondServer.socket (plainQuery.withId ⟨2⟩), .check (some ⟨false, 5⟩),
      .check (some ⟨false, 5⟩), .accept secondServer.socket ⟨plainAnswer⟩,
      .outcome secondServer (.ok ⟨plainAnswer⟩), .check (some ⟨false, 5⟩)],
    by decide +kernel, by decide +kernel, by decide +kernel⟩

end Forwarder

end Sederial
